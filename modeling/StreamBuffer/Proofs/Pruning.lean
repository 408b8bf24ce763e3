import StreamBuffer.Proofs.Cursors.Inversion
import StreamBuffer.Proofs.Transitions

/-!
# Pruning spares what readers can see

Tags are pruned up to where the slowest reader stood when room was last asked for. That reader may
have gone since, and may have been ahead of the writer, since look-back can be read before anything
is written; readers that come later start at the writer. But no reader is ever a whole capacity
behind that place, and by a capacity the pruning stays behind it.
-/

namespace StreamBuffer

/-- Readers take no more than they have left. Nothing else is asked of the callers. -/
def Limits.unread : Limits where
  write _ _ := True
  read cursors reader items := reader.itemsRead + items ≤ cursors.written + reader.lookBack
  declare _ _ _ := True
  madeUp := True

def Buffer.Prunes (buffer : Buffer) (tag : Tag) : Prop :=
  buffer.cursors.readers ≠ [] ∧ buffer.cursors.slowest ≠ buffer.lastSlowest ∧
    tag.offset + buffer.cursors.maxDelay + buffer.geometry.capacity < buffer.lastSlowest

instance (buffer : Buffer) : DecidablePred buffer.Prunes := fun _ => instDecidableAnd

/-- The reach of a pruning is a word. -/
abbrev Buffer.Reaches (buffer : Buffer) : Prop :=
  buffer.cursors.maxDelay + buffer.geometry.capacity < Word.limit

structure Reader.Trails (reader : Reader) (written capacity time : Nat) : Prop where
  lookBack_lt : reader.lookBack < capacity
  read_le : reader.itemsRead ≤ written + reader.lookBack
  time_lt : time < reader.itemsRead + capacity

namespace Cursors

/-- Nobody is a capacity behind, and nobody who comes will be. -/
structure Trailing (cursors : Cursors) (capacity time : Nat) : Prop where
  capacity_pos : 0 < capacity
  writer : time < cursors.written + capacity
  readers : ∀ reader ∈ cursors.readers, reader.Trails cursors.written capacity time

variable {cursors others : Cursors} {capacity time : Nat} {limits : Limits} {geometry : Geometry}

namespace Trailing

/-- Where readers are on the ring does not matter, and the writer may go on. -/
theorem kept (h : cursors.Trailing capacity time) (hw : cursors.written ≤ others.written)
    (hr : ∀ reader ∈ others.readers, ∃ old ∈ cursors.readers, reader.lookBack = old.lookBack ∧
      reader.itemsRead = old.itemsRead) :
    others.Trailing capacity time := by
  refine ⟨h.capacity_pos, Nat.lt_of_lt_of_le h.writer (Nat.add_le_add_right hw _),
    fun reader hm => ?_⟩
  obtain ⟨old, hold, hl, hi⟩ := hr reader hm
  obtain ⟨hlookBack, hread, htime⟩ := h.readers old hold
  exact ⟨by omega, by omega, by omega⟩

theorem same (h : cursors.Trailing capacity time) (hw : others.written = cursors.written)
    (hr : ∀ reader ∈ others.readers, reader ∈ cursors.readers) : others.Trailing capacity time :=
  h.kept (Nat.le_of_eq hw.symm) fun reader hm => ⟨reader, hr reader hm, rfl, rfl⟩

theorem refresh (h : cursors.Trailing capacity time) (he : cursors.refreshTail = .ok others) :
    others.Trailing capacity time := by
  rcases refreshTail_eq_ok he with rfl | rfl
  · exact h
  · exact h.same rfl fun _ hm => hm

theorem raise (h : cursors.Trailing capacity time) {lookBack delay : Nat} {events : List Event}
    (he : cursors.raise geometry lookBack delay = .ok (others, events)) :
    others.Trailing capacity time := by
  rcases raise_eq_ok he with rfl | ⟨_, _, _, rfl⟩
  · exact h.same rfl fun _ hm => hm
  · refine h.kept (Nat.le_refl _) fun reader hm => ?_
    obtain ⟨old, hold, rfl⟩ := List.mem_map.mp hm
    exact ⟨old, hold, rfl, rfl⟩

theorem replace (h : cursors.Trailing capacity time) {reader other : Reader}
    (hr : reader ∈ cursors.readers) (hl : other.lookBack = reader.lookBack)
    (hi : reader.itemsRead ≤ other.itemsRead)
    (hread : other.itemsRead ≤ cursors.written + reader.lookBack) :
    (cursors.replace other).Trailing capacity time := by
  refine ⟨h.capacity_pos, h.writer, fun landed hm => ?_⟩
  obtain ⟨old, hold, rfl⟩ := List.mem_map.mp hm
  split
  · obtain ⟨hlookBack, _, htime⟩ := h.readers reader hr
    refine ⟨hl ▸ hlookBack, ?_, by omega⟩
    rw [hl]
    exact hread
  · exact h.readers old hold

end Trailing

/-- All read at least as much as the slowest, and it has read no more than there was. -/
theorem Trailing.renewed (h : cursors.Trailing capacity time) (hr : cursors.readers ≠ []) :
    cursors.Trailing capacity cursors.slowest := by
  obtain ⟨least, hleast⟩ : ∃ least, (cursors.readers.map (·.itemsRead)).min? = some least := by
    cases hm : (cursors.readers.map (·.itemsRead)).min? with
    | none => exact absurd (List.min?_eq_none_iff.mp hm) (by simpa using hr)
    | some least => exact ⟨least, rfl⟩
  obtain ⟨hmem, hle⟩ := List.min?_eq_some_iff.mp hleast
  obtain ⟨first, hfirst, hread⟩ := List.mem_map.mp hmem
  have hslowest : cursors.slowest = least := by
    unfold slowest
    rw [hleast, Option.getD_some]
  obtain ⟨hlookBack, hfits, _⟩ := h.readers first hfirst
  refine ⟨h.capacity_pos, by omega, fun reader hm => ?_⟩
  obtain ⟨hl, hi, _⟩ := h.readers reader hm
  have := hle _ (List.mem_map_of_mem hm)
  have := h.capacity_pos
  exact ⟨hl, hi, by omega⟩

theorem Relocated.trailing (hr : cursors.Relocated limits geometry others)
    (h : cursors.Trailing capacity time) :
    others.Trailing capacity time := by
  cases hr with
  | stay => exact h
  | settle _ _ he =>
    have hsettle := Plan.settle_eq_ok he
    refine h.kept (Nat.le_of_eq hsettle.written_eq.symm) fun reader hm => ?_
    obtain ⟨old, hold, readIndex, rfl⟩ := hsettle.reader reader hm
    exact ⟨old, hold, rfl, rfl⟩

theorem Movement.trailing (hm : cursors.Movement .unread geometry others)
    (h : cursors.Trailing geometry.capacity time) : others.Trailing geometry.capacity time := by
  cases hm with
  | write _ he =>
    rw [advanceWriter_eq_ok he]
    exact h.kept (Nat.le_add_right ..) fun reader hr => ⟨reader, hr, rfl, rfl⟩
  | read hr hread he =>
    obtain ⟨readIndex, _, rfl⟩ := advanceReader_eq_ok he
    exact h.replace hr rfl (Nat.le_add_right ..) hread
  | refresh he => exact h.refresh he
  | attach _ he =>
    obtain ⟨hh, raised, _, readIndex, hraise, _, rfl⟩ := attach_eq_ok he
    have hnext : Trailing
        { cursors with nextReader := cursors.nextReader + 1 } geometry.capacity time :=
      h.same rfl fun _ hm => hm
    have hraised := hnext.raise hraise
    have hpos := h.capacity_pos
    -- a new reader begins where the writer is, ahead of all pruning
    refine ⟨hpos, hraised.writer, fun reader hm => ?_⟩
    rcases List.mem_append.mp hm with hm | hm
    · exact hraised.readers reader hm
    · rw [List.mem_singleton.mp hm]
      exact ⟨by simp only; omega, Nat.le_add_right .., hraised.writer⟩
  | raise _ _ he => exact h.raise he
  | @detach id _ he =>
    have hwithout : (cursors.without id).Trailing geometry.capacity time :=
      h.same rfl fun _ hm => List.eraseP_sublist.subset hm
    exact hwithout.refresh (detach_eq_ok he)
  | @declare reader delay _ hr _ he =>
    have hdeclared : (cursors.replace { reader with sampleDelay := delay }).Trailing
        geometry.capacity time :=
      h.replace hr rfl (Nat.le_refl _) (h.readers reader hr).read_le
    exact hdeclared.raise he

end Cursors

namespace Site

variable {site after : Site} {limits : Limits}

def Trailing (site : Site) : Prop :=
  site.buffer.cursors.Trailing site.buffer.geometry.capacity site.buffer.lastSlowest

theorem Passes.trailing (hp : site.Passes .unread after) (h : site.Trailing) : after.Trailing := by
  have hstart : site.buffer.cursors.Trailing site.buffer.geometry.capacity
      after.buffer.lastSlowest := by
    rcases hp.lastSlowest_eq with he | ⟨hr, he⟩
    · rw [he]
      exact h
    · rw [he]
      exact Cursors.Trailing.renewed h hr
  unfold Trailing
  rw [hp.geometry_eq]
  exact hp.keeps (fun _ hr => hr.trailing hstart) fun _ _ hm => hm.trailing

/-- A pruning whose reach is no word breaks off, and then nothing is dropped. -/
theorem Swept.tags_left {mid : Site} (hs : site.Swept mid) : mid.buffer.tags.tags =
    site.buffer.tags.tags.filter
      fun tag => !decide (site.buffer.Reaches ∧ site.buffer.Prunes tag) := by
  have hkeeps : (∀ tag, ¬ (site.buffer.Reaches ∧ site.buffer.Prunes tag)) → site.buffer.tags.tags =
      site.buffer.tags.tags.filter
        fun tag => !decide (site.buffer.Reaches ∧ site.buffer.Prunes tag) := by
    intro hn
    exact (List.filter_eq_self.mpr fun tag _ => by simp [hn tag]).symm
  cases hs with
  | alone hr => exact hkeeps fun tag hp => hp.2.1 hr
  | still hs => exact hkeeps fun tag hp => hp.2.2.1 hs
  | fault he =>
    refine hkeeps fun tag hp => ?_
    obtain ⟨kept, hprune, _⟩ := site.buffer.tags.prune_eq_ok site.buffer.lastSlowest hp.1
    cases hprune.symm.trans he
  | prune hr hs ht =>
    have hword : site.buffer.Reaches := Tag.Index.reach_of_prune ht
    obtain ⟨kept, hprune, htags⟩ := site.buffer.tags.prune_eq_ok site.buffer.lastSlowest hword
    cases hprune.symm.trans ht
    refine htags.trans (List.filter_congr fun tag _ => ?_)
    have hprunes : site.buffer.Reaches ∧ site.buffer.Prunes tag ↔
        tag.offset + site.buffer.cursors.maxDelay + site.buffer.geometry.capacity <
          site.buffer.lastSlowest :=
      ⟨fun hp => hp.2.2.2, fun hlt => ⟨hword, hr, hs, hlt⟩⟩
    rw [decide_eq_decide.mpr hprunes]

theorem Asked.tags_left (h : site.Asked limits after) : after.buffer.tags.tags =
    site.buffer.tags.tags.filter
      fun tag => !decide (site.buffer.Reaches ∧ site.buffer.Prunes tag) := by
  obtain ⟨mid, hswept, hshift⟩ := h
  rw [← hswept.tags_left]
  exact congrArg (fun face => face.tags.tags) hshift.face_eq

theorem Asked.tags_eq (h : site.Asked limits after) (hdelay : site.buffer.Reaches) :
    after.buffer.tags.tags =
      site.buffer.tags.tags.filter fun tag => !decide (site.buffer.Prunes tag) := by
  rw [h.tags_left]
  exact List.filter_congr fun tag _ => by rw [decide_eq_decide.mpr (and_iff_right hdelay)]

/-- What goes lies behind all readers, also when their outputs lag. -/
theorem Trailing.past (h : site.Trailing) {tag : Tag} (hp : site.buffer.Prunes tag) :
    ∀ reader ∈ site.buffer.cursors.readers, tag.offset + site.buffer.cursors.maxDelay <
      reader.itemsRead := by
  intro reader hr
  have := (Cursors.Trailing.readers h reader hr).time_lt
  have := hp.2.2
  omega

end Site

variable {backend : Backend} {request : Request} {id granted : Nat} {machine allocated : Machine}
variable {buffer : Buffer}
variable {start site : Site}

theorem Play.trailing (h : start.Trailing)
    (hplay : Play (fun _ site act => act.Within .unread site) start granted site) :
    site.Trailing := by
  induction hplay with
  | refl => exact h
  | tail act _ hact ih => exact (act.passes hact).trailing ih

theorem Buffer.allocate_trailing
    (ha : Buffer.allocate backend request id machine = .ok buffer allocated) :
    Site.Trailing ⟨allocated, buffer⟩ := by
  obtain ⟨hgives, hface⟩ := Buffer.allocate_face ha
  have hcursors : buffer.cursors = {} := congrArg Site.Face.cursors hface
  have hslowest : buffer.lastSlowest = 0 := congrArg Site.Face.lastSlowest hface
  have hpos := hgives.capacity_pos
  unfold Site.Trailing
  simp only [hcursors, hslowest]
  exact ⟨hpos, by simpa using hpos, nofun⟩

/-- **Pruning.** Readers may come, go and declare delays at any time. What is pruned when room is
asked for is known beforehand, and every reader, whenever it came, has left it behind by more than
the longest delay. -/
theorem pruned_tags_are_past
    (ha : Buffer.allocate backend request id machine = .ok buffer allocated)
    (hplay : Play (fun _ site act => act.Within .unread site) ⟨allocated, buffer⟩ granted site)
    (hdelay : site.buffer.cursors.maxDelay + site.buffer.geometry.capacity < Word.limit) :
    (Call.space.after site).buffer.tags.tags =
      site.buffer.tags.tags.filter (fun tag => !decide (site.buffer.Prunes tag)) ∧
    (∀ multiple, ((Call.isOutputBlocked multiple).after site).buffer.tags.tags =
      if site.buffer.geometry.mapping = .single then
        site.buffer.tags.tags.filter fun tag => !decide (site.buffer.Prunes tag)
      else site.buffer.tags.tags) ∧
    ∀ tag, site.buffer.Prunes tag →
      ∀ reader ∈ site.buffer.cursors.readers, tag.offset + site.buffer.cursors.maxDelay <
        reader.itemsRead := by
  have htrailing := Play.trailing (Buffer.allocate_trailing ha) hplay
  refine ⟨?_, fun multiple => ?_, fun tag => htrailing.past⟩
  · have hasks : Call.space.perform.Leaves site (site.Asked .unread) := (Site.space_asks site).map
    exact (Call.after_of hasks).tags_eq hdelay
  · cases hm : site.buffer.geometry.mapping with
    | single =>
      have hasks : (Call.isOutputBlocked multiple).perform.Leaves site (site.Asked .unread) :=
        (Site.isOutputBlocked_asks hm multiple).map
      rw [if_pos rfl]
      exact (Call.after_of hasks).tags_eq hdelay
    | double =>
      have hsame : (Call.isOutputBlocked multiple).perform.Leaves site fun after => after = site :=
        (Site.isOutputBlocked_same hm multiple).map
      rw [if_neg nofun, Call.after_of hsame]

theorem Call.read_within {reader : Reader} {items : Nat}
    (hr : site.buffer.cursors.reader? id = some reader)
    (h : reader.itemsRead + items ≤ site.buffer.cursors.written + reader.lookBack) :
    (Call.read id items).Within .unread site := by
  intro other hm
  cases hr.symm.trans hm
  exact h

/-- Room for two items: a reader has read four, three of them when room was last asked for. The tag
of the first item goes. -/
theorem pruned_tags_are_past_heap : ∃ granted site tag,
    Play (fun _ site act => act.Within .unread site) (Site.onHeap 2 1) granted site ∧
      site.buffer.tags.tags = [tag] ∧ (Call.space.after site).buffer.tags.tags = [] ∧
      ∀ reader ∈ site.buffer.cursors.readers, tag.offset + 0 < reader.itemsRead := by
  have hstart : Play (fun _ site act => act.Within .unread site) (Site.onHeap 2 1) 0 _ := .refl
  have hattached := hstart.tail (.call (.attach 1 0)) trivial
  have htagged := hattached.tail (.call (.tag { offset := 0, key := "first" })) trivial
  -- the first two items fill the region; from the third on the writer comes round
  have hfilled := htagged.tail (.call (.advance 2)) fun _ _ _ => trivial
  have hemptied := hfilled.tail (.call (.read 0 2)) (Call.read_within rfl (by decide))
  have hthird := hemptied.tail (.call (.advance 1)) fun _ _ _ => trivial
  have hthirdRead := hthird.tail (.call (.read 0 1)) (Call.read_within rfl (by decide))
  have hfourth := hthirdRead.tail (.call (.advance 1)) fun _ _ _ => trivial
  have hplay := hfourth.tail (.call (.read 0 1)) (Call.read_within rfl (by decide))
  have hallocate := Buffer.allocate_onHeap 2 1 1 (by decide)
  obtain ⟨hspace, _, hpast⟩ := pruned_tags_are_past hallocate hplay (by decide)
  exact ⟨_, _, { offset := 0, key := "first" }, hplay, rfl, hspace, hpast _ (by decide)⟩

end StreamBuffer
