import StreamBuffer.Proofs.Tables
import StreamBuffer.Proofs.TagView

/-!
# Hiding a stored tag

A consumer removes a tag by a copy of it, and the stored tag has to be the same as the copy. A
payload is the same as itself unless it holds a NaN.

`removal_hides_unless_nan`: without a NaN the removal finds the stored tag, and whatever is done
afterwards, the consumer is shown what it would be shown if that tag were not stored, while others
still see it. With a NaN the removal finds nothing and changes nothing; `nan_tag_stays_shown` is
such a run.
-/

namespace StreamBuffer

/-! ## Payloads that are the same as themselves -/

namespace Tag.Value

mutual

def isComparable : Tag.Value → Bool
  | real x => !x.isNaN
  | tuple items => areComparable items
  | _ => true

def areComparable : List Tag.Value → Bool
  | [] => true
  | item :: items => isComparable item && areComparable items

end

mutual

theorem same_self : ∀ value : Tag.Value, value.same value = value.isComparable
  | null => rfl
  | flag _ | long _ | count _ | symbol _ | blob _ => by simp [same, isComparable]
  | real x => by simp [same, isComparable, Binary64.sameValue]
  | tuple items => by
    rw [same, isComparable]
    exact sameItems_self items

theorem sameItems_self : ∀ items : List Tag.Value, sameItems items items = areComparable items
  | [] => rfl
  | item :: items => by rw [sameItems, areComparable, same_self item, sameItems_self items]

end

mutual

/-- Nothing is the same as a payload that holds a NaN. -/
theorem isComparable_of_same : ∀ {a b : Tag.Value}, a.same b = true → b.isComparable = true
  | _, null, _ | _, flag _, _ | _, long _, _ | _, count _, _ | _, symbol _, _ | _, blob _, _ => rfl
  | a, real y, h => by
    cases a with
    | real x => simp_all [same, isComparable, Binary64.sameValue]
    | _ => cases h
  | a, tuple items, h => by
    cases a with
    | tuple others => exact areComparable_of_sameItems h
    | _ => cases h

theorem areComparable_of_sameItems :
    ∀ {as bs : List Tag.Value}, sameItems as bs = true → areComparable bs = true
  | _, [], _ => rfl
  | [], _ :: _, h => nomatch h
  | a :: as, b :: bs, h => by
    rw [sameItems, Bool.and_eq_true] at h
    rw [areComparable, isComparable_of_same h.1, areComparable_of_sameItems h.2]
    rfl

end

end Tag.Value

/-- A copy of the tag, whoever hid it. -/
def Tag.copy (tag : Tag) (hiddenFrom : List Nat) : Tag := { tag with hiddenFrom }

theorem Tag.same_copy (tag : Tag) (marks : List Nat) :
    tag.same (tag.copy marks) = tag.value.isComparable := by
  simp [same, copy, Value.same_self]

theorem Tag.isComparable_of_same {stored tag : Tag} (h : stored.same tag = true) :
    tag.value.isComparable = true := by
  simp only [same, Bool.and_eq_true] at h
  exact Value.isComparable_of_same h.1.2

/-! ## All tags that were ever added -/

variable {ledger others : Table Posting} {site start after : Site} {act : Act}
variable {posting before : Posting} {number : Nat}

/-- All tags that were ever added, by number, after an act. A tag that is dropped leaves its place
empty. -/
def Act.record (act : Act) (site : Site) (ledger : Table Posting) : Table Posting :=
  ⟨ledger.slots.map (·.bind (act.fate site)) ++ act.posted.map some⟩

inductive Recorded (ledger : Table Posting) (start : Site) : Table Posting → Site → Prop where
  | refl : Recorded ledger start ledger start
  | tail {others : Table Posting} {site : Site} (act : Act)
      (run : Recorded ledger start others site) :
      Recorded ledger start (act.record site others) (act.after site)

theorem Act.things_record (act : Act) (site : Site) (ledger : Table Posting) :
    (act.record site ledger).things = ledger.things.filterMap (act.fate site) ++ act.posted := by
  unfold record Table.things List.reduceOption
  rw [List.filterMap_append, List.filterMap_map, List.filterMap_map, List.filterMap_filterMap]
  exact congrArg (_ ++ ·) List.filterMap_some

theorem Act.get?_record (h : number < ledger.next) :
    (act.record site ledger).get? number = (ledger.get? number).bind (act.fate site) := by
  have hlt : number < (ledger.slots.map (·.bind (act.fate site))).length := by
    rw [List.length_map]
    exact h
  unfold record Table.get?
  dsimp only
  rw [List.getElem?_append_left hlt, List.getElem?_map]
  cases ledger.slots[number]? <;> rfl

theorem Act.fate_eq_some (h : act.fate site before = some posting) :
    posting.tag = before.tag ∧ before.removers ⊆ posting.removers := by
  unfold fate at h
  split at h
  · cases h
    unfold Posting.remove
    split
    · exact ⟨rfl, List.subset_append_left ..⟩
    · exact ⟨rfl, List.Subset.refl _⟩
  · split at h
    · cases h
    · cases h
      exact ⟨rfl, List.Subset.refl _⟩

theorem Recorded.stores (hrun : Recorded ledger start others site)
    (h : start.Stores ledger.things) :
    site.Stores others.things := by
  induction hrun with
  | refl => exact h
  | tail act _ ih =>
    rw [Act.things_record]
    exact Act.stores ih

/-- **Along a run.** A tag keeps its number while it is stored, and who removed it stays known. -/
theorem Recorded.keeps (hrun : Recorded ledger start others site) (h : number < ledger.next) :
    number < others.next ∧ ∀ posting, others.get? number = some posting →
      ∃ before, ledger.get? number = some before ∧ posting.tag = before.tag ∧
        before.removers ⊆ posting.removers := by
  induction hrun with
  | refl => exact ⟨h, fun posting hp => ⟨posting, hp, rfl, List.Subset.refl _⟩⟩
  | @tail mid site act _ ih =>
    obtain ⟨hlt, hmid⟩ := ih
    refine ⟨?_, fun posting hp => ?_⟩
    · unfold Act.record Table.next
      rw [List.length_append, List.length_map]
      exact Nat.lt_of_lt_of_le hlt (Nat.le_add_right ..)
    · rw [Act.get?_record hlt, Option.bind_eq_some_iff] at hp
      obtain ⟨middle, hmiddle, hfate⟩ := hp
      obtain ⟨before, hbefore, htag, hremovers⟩ := hmid middle hmiddle
      obtain ⟨htag', hremovers'⟩ := Act.fate_eq_some hfate
      exact ⟨before, hbefore, htag'.trans htag, fun _ hc => hremovers' (hremovers hc)⟩

/-! ## Removal -/

/-- A stored tag is found by its copy exactly if its payload is the same as itself. -/
theorem Site.Stores.hide_copy {postings : List Posting} (h : site.Stores postings)
    (hp : posting ∈ postings) (marks : List Nat) (consumer : Nat) :
    (site.buffer.tags.hide (posting.tag.copy marks) consumer).1 =
      posting.tag.value.isComparable := by
  have hperm := Tag.Agree.perm h site.buffer.tags.ordered
  rw [(site.buffer.tags.hide_eq _ consumer).1, hperm.any_eq, Bool.eq_iff_iff, List.any_eq_true]
  constructor
  · rintro ⟨stored, _, hsame⟩
    exact Tag.isComparable_of_same hsame
  · intro hvalue
    refine ⟨posting.stored, List.mem_map_of_mem hp, ?_⟩
    rw [Posting.stored_eq (·.same _) fun tag consumer => tag.same_hideFrom _ consumer,
      Tag.same_copy]
    exact hvalue

theorem Tag.Group.hide_of_nan {tag : Tag} (h : tag.value.isComparable = false) (group : Tag.Group)
    (consumer : Nat) : group.hide tag consumer = group := by
  obtain ⟨offset, tags, together⟩ := group
  have hmap : tags.map
      (fun stored => if stored.same tag then stored.hideFrom consumer else stored) = tags := by
    refine (List.map_congr_left fun stored _ => if_neg fun hsame => ?_).trans (List.map_id _)
    rw [Tag.isComparable_of_same hsame] at h
    cases h
  unfold hide
  simp only [hmap]

theorem Tag.Index.hide_of_nan {index : Tag.Index} {tag : Tag} (h : tag.value.isComparable = false)
    (consumer : Nat) : (index.hide tag consumer).2 = index := by
  have hgroups : Tag.Group.hideIn index.groups tag consumer = index.groups := by
    refine (List.map_congr_left fun group _ => ?_).trans (List.map_id _)
    split
    · exact group.hide_of_nan h consumer
    · rfl
  unfold hide
  split
  · rfl
  · simp only [hgroups]

theorem Posting.mem_removers_remove {tag : Tag} (h : posting.tag.same tag = true) (consumer : Nat) :
    consumer ∈ (posting.remove tag consumer).removers := by
  unfold remove
  rw [if_pos h]
  exact List.mem_append_right _ (List.mem_singleton_self _)

/-! ## What is shown -/

namespace Site

/-- Every reader shows the consumer what it would show if the tag of this number were not stored. -/
def Conceals (site : Site) (ledger : Table Posting) (number consumer : Nat) : Prop :=
  ∀ slot reader start stop, site.buffer.cursors.reader? slot = some reader → stop < Word.limit →
    tags slot start stop consumer site =
      .ok (Posting.view (ledger.remove number).things reader.sampleDelay start stop consumer) site

/-- Every reader shows the tag of this number, if it is stored, in all windows in which it lies.
Whoever removed it, or was not meant to see it from the first, is excepted. -/
def Reveals (site : Site) (ledger : Table Posting) (number : Nat) : Prop :=
  ∀ posting consumer, ledger.get? number = some posting →
    consumer ∉ posting.tag.hiddenFrom → consumer ∉ posting.removers →
    ∀ slot reader start stop, site.buffer.cursors.reader? slot = some reader → stop < Word.limit →
      start ≤ posting.tag.offset + reader.sampleDelay →
      posting.tag.offset + reader.sampleDelay < stop →
      ∃ shown, tags slot start stop consumer site = .ok shown site ∧
      posting.tag.shown reader.sampleDelay ∈ shown

theorem Stores.conceals {consumer : Nat} (h : site.Stores ledger.things)
    (hremoved : ∀ posting, ledger.get? number = some posting → consumer ∈ posting.removers) :
    site.Conceals ledger number consumer := by
  intro slot reader start stop hr hstop
  rw [tags_of_stores h hr hstop]
  unfold Posting.view
  rw [Table.filter_things_remove fun posting hp => ?_]
  unfold Posting.isVisible
  simp [hremoved posting hp]

theorem Stores.reveals (h : site.Stores ledger.things) : site.Reveals ledger number := by
  intro posting consumer hp hmarks hremovers slot reader start stop hr hstop hfrom hto
  refine ⟨_, tags_of_stores h hr hstop consumer, ?_⟩
  have hvisible : posting.isVisible reader.sampleDelay start stop consumer = true := by
    unfold Posting.isVisible
    simp [hfrom, hto, hmarks, hremovers]
  exact List.mem_map_of_mem
    (List.mem_mergeSort.mpr (List.mem_filter.mpr ⟨Table.mem_things hp, hvisible⟩))

end Site

variable {backend : Backend} {request : Request} {id : Nat} {machine allocated : Machine}
variable {buffer : Buffer}

/-- **Removal by a copy.** It finds the stored tag unless the payload holds a NaN, and from then on
the tag is concealed from the consumer, and only from those that removed it. If the payload holds a
NaN, nothing is found and nothing changes. -/
theorem removal_hides_unless_nan
    (ha : Buffer.allocate backend request id machine = .ok buffer allocated)
    (hrun : Recorded {} ⟨allocated, buffer⟩ ledger site)
    (hstored : ledger.get? number = some posting) (marks : List Nat) (consumer : Nat) :
    let removal := Act.call (.untag (posting.tag.copy marks) consumer)
    removal.outcome site = .ok (.told posting.tag.value.isComparable) ∧
      (posting.tag.value.isComparable = false → removal.after site = site) ∧
      ∀ others after, Recorded (removal.record site ledger) (removal.after site) others after →
        (posting.tag.value.isComparable = true → after.Conceals others number consumer) ∧
        after.Reveals others number := by
  intro removal
  have htags : buffer.tags = {} := congrArg Site.Face.tags (Buffer.allocate_face ha).2
  have hstores : site.Stores ledger.things := by
    refine hrun.stores ?_
    unfold Site.Stores
    rw [htags]
    exact fun _ => rfl
  -- later acts keep the number, and with it who removed the tag
  have hremoved : (removal.record site ledger).get? number =
      some (posting.remove (posting.tag.copy marks) consumer) := by
    rw [Act.get?_record (Table.lt_next hstored), hstored]
    rfl
  refine ⟨?_, fun hnan => ?_, fun others after hlater => ?_⟩
  · change Except.ok (Answer.told (site.buffer.tags.hide (posting.tag.copy marks) consumer).1) = _
    rw [hstores.hide_copy (Table.mem_things hstored) marks]
  · have hcopy : (posting.tag.copy marks).value.isComparable = false := hnan
    change { site with
      buffer := { site.buffer with
        tags := (site.buffer.tags.hide (posting.tag.copy marks) consumer).2 } } = site
    rw [Tag.Index.hide_of_nan hcopy]
  · have hlast : after.Stores others.things := hlater.stores (by
      rw [Act.things_record]
      exact Act.stores hstores)
    refine ⟨fun hvalue => hlast.conceals fun last hp => ?_, hlast.reveals⟩
    obtain ⟨before, hbefore, _, hremovers⟩ := (hlater.keeps (Table.lt_next hremoved)).2 last hp
    cases hremoved.symm.trans hbefore
    exact hremovers
      (Posting.mem_removers_remove ((posting.tag.same_copy marks).trans hvalue) consumer)

def Site.carrying (value : Tag.Value) : Site :=
  [.attach 1 0, .tag { offset := 5, key := "gain", value }].foldl
    (fun site call => Call.after call site)
    (Site.onHeap 8 1)

/-- A pair of a real and a flag. A consumer removes the tag, a tag like it is added again, and the
consumer sees that one only. -/
theorem removal_hides_unless_nan_heap :
    let tag : Tag :=
    { offset := 5, key := "gain", value := .tuple [.real ⟨0x3ff0000000000000⟩, .flag true] }
    let removal := Act.call (.untag (tag.copy [3]) 7)
    let after := (Act.call (.tag tag)).after (removal.after (.carrying tag.value))
    removal.outcome (.carrying tag.value) = .ok (.told true) ∧
      Site.tags 0 0 9 7 after = .ok [tag] after ∧
      after.Reveals ⟨[some ⟨tag, [7]⟩, some ⟨tag, []⟩]⟩ 0 := by
  intro tag removal after
  have hallocate := Buffer.allocate_onHeap 8 1 1 (by decide)
  have hstart : Recorded {} (Site.onHeap 8 1) {} _ := .refl
  have hattached := hstart.tail (.call (.attach 1 0))
  have hrun : Recorded {} (Site.onHeap 8 1) ⟨[some ⟨tag, []⟩]⟩ (.carrying tag.value) :=
    hattached.tail (.call (.tag tag))
  have hstored : (⟨[some ⟨tag, []⟩]⟩ : Table Posting).get? 0 = some ⟨tag, []⟩ := rfl
  obtain ⟨htold, _, hlater⟩ := removal_hides_unless_nan hallocate hrun hstored [3] 7
  obtain ⟨hconceals, hreveals⟩ := hlater _ _ (.tail (.call (.tag tag)) .refl)
  have hview : Posting.view [⟨tag, []⟩] 0 0 9 7 = [tag] := by cbv
  refine ⟨htold, ?_, hreveals⟩
  rw [← hview]
  exact hconceals rfl 0 ⟨0, 0, 0, 0, 0⟩ 0 9 rfl (by decide)

/-- A consumer removes a tag whose payload is a NaN by a copy of it: there is no such tag, and the
consumer still sees it. -/
theorem nan_tag_stays_shown :
    let tag : Tag := { offset := 5, key := "gain", value := .real ⟨0x7ff8000000000000⟩ }
    let removal := Act.call (.untag tag 7)
    removal.outcome (.carrying tag.value) = .ok (.told false) ∧
      Site.tags 0 0 9 7 (removal.after (.carrying tag.value)) =
        .ok [tag] (removal.after (.carrying tag.value)) := by
  cbv

end StreamBuffer
