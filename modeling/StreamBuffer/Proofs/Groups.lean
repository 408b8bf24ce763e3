import Mathlib.Data.List.Basic
import StreamBuffer.Tag.Index

/-!
# The groups of an index as one list

Read one after another, the groups of an index are one list of tags, ordered by offset. Each
operation on the groups is an operation on that list: tags are taken out of it by their offset, a
tag that is inserted comes after those with its offset, and a tag is hidden wherever it stands. The
number that is counted along is the length of the list.
-/

namespace StreamBuffer.Tag

def Group.all (groups : List Group) : List Tag := groups.flatMap (·.tags)

def Index.tags (index : Index) : List Tag := Group.all index.groups

variable {tag other : Tag} {tags others : List Tag}

/-! ## Lists of tags that agree -/

abbrev Ordered (tags : List Tag) : Prop := tags.Pairwise (·.offset ≤ ·.offset)

def Agree (tags others : List Tag) : Prop :=
  ∀ offset, tags.filter (·.offset == offset) = others.filter (·.offset == offset)

theorem Agree.mem_iff (h : Agree tags others) : tag ∈ tags ↔ tag ∈ others := by
  have htag := congrArg (tag ∈ ·) (h tag.offset)
  simpa only [List.mem_filter, beq_self_eq_true, and_true, eq_iff_iff] using htag

theorem offset_le_of_mem {first : Tag} {rest : List Tag} (h : Ordered (first :: rest))
    (ht : tag ∈ first :: rest) : first.offset ≤ tag.offset := by
  rcases List.mem_cons.mp ht with rfl | ht
  · exact Nat.le_refl _
  · exact (List.pairwise_cons.mp h).1 tag ht

theorem Agree.eq (h : Agree tags others) (hl : Ordered tags) (hr : Ordered others) :
    tags = others := by
  induction tags generalizing others with
  | nil => exact (List.eq_nil_iff_forall_not_mem.mpr fun t ht => nomatch h.mem_iff.mpr ht).symm
  | cons a tags ih =>
    cases others with
    | nil => exact nomatch h.mem_iff.mp (List.mem_cons_self ..)
    | cons b others =>
      -- Each head is a tag of the other list, so neither lies before the other.
      have hab : a.offset = b.offset :=
        Nat.le_antisymm (offset_le_of_mem hl (h.mem_iff.mpr (List.mem_cons_self ..)))
          (offset_le_of_mem hr (h.mem_iff.mp (List.mem_cons_self ..)))
      have hhead := h a.offset
      simp only [List.filter_cons, hab, beq_self_eq_true, if_true] at hhead
      obtain rfl : a = b := (List.cons.inj hhead).1
      refine congrArg (a :: ·)
        (ih (fun offset => ?_) (List.pairwise_cons.mp hl).2 (List.pairwise_cons.mp hr).2)
      have ho := h offset
      rw [List.filter_cons, List.filter_cons] at ho
      split at ho
      · exact (List.cons.inj ho).2
      · exact ho

theorem ordered_mergeSort (tags : List Tag) : Ordered (tags.mergeSort (·.offset ≤ ·.offset)) :=
  (List.pairwise_mergeSort (by grind) (by grind) tags).imp of_decide_eq_true

theorem mergeSort_agree (tags : List Tag) : Agree (tags.mergeSort (·.offset ≤ ·.offset)) tags := by
  intro offset
  have hequal : (tags.filter (·.offset == offset)).Pairwise
      fun a b => decide (a.offset ≤ b.offset) = true := by
    refine List.pairwise_of_forall_mem_list fun a ha b hb => ?_
    have ha := beq_iff_eq.mp (List.mem_filter.mp ha).2
    have hb := beq_iff_eq.mp (List.mem_filter.mp hb).2
    exact decide_eq_true (Nat.le_of_eq (ha.trans hb.symm))
  -- Sorting is stable: the tags of one offset are tied, so they stay in order and none is lost.
  have hsub : (tags.filter (·.offset == offset)).Sublist (tags.mergeSort (·.offset ≤ ·.offset)) :=
    List.sublist_mergeSort (by grind) (by grind) hequal List.filter_sublist
  have hkept := hsub.filter (·.offset == offset)
  rw [List.filter_filter] at hkept
  simp only [Bool.and_self] at hkept
  exact (hkept.eq_of_length ((List.mergeSort_perm ..).filter _).length_eq.symm).symm

theorem Agree.trans {more : List Tag} (h : Agree tags others) (hn : Agree others more) :
    Agree tags more :=
  fun offset => (h offset).trans (hn offset)

/-- What is ordered is any list that agrees with it, sorted. -/
theorem Agree.eq_sort (h : Agree tags others) (ho : Ordered tags) :
    tags = others.mergeSort (·.offset ≤ ·.offset) :=
  (h.trans fun offset => (mergeSort_agree others offset).symm).eq ho (ordered_mergeSort others)

theorem Agree.perm (h : Agree tags others) (ho : Ordered tags) : tags.Perm others := by
  rw [h.eq_sort ho]
  exact List.mergeSort_perm ..

theorem Agree.append (h : Agree tags others) (more : List Tag) :
    Agree (tags ++ more) (others ++ more) := fun offset => by
  rw [List.filter_append, List.filter_append, h offset]

theorem Agree.after (h : Agree tags others) (more : List Tag) :
    Agree (more ++ tags) (more ++ others) := fun offset => by
  rw [List.filter_append, List.filter_append, h offset]

theorem Agree.filter (h : Agree tags others) (keep : Tag → Bool) :
    Agree (tags.filter keep) (others.filter keep) := fun offset => by
  have hswap : ∀ l : List Tag,
      (l.filter keep).filter (·.offset == offset) = (l.filter (·.offset == offset)).filter keep :=
    fun l => by simp only [List.filter_filter, Bool.and_comm]
  rw [hswap, hswap, h offset]

theorem Agree.map (h : Agree tags others) {f : Tag → Tag} (hf : ∀ t, (f t).offset = t.offset) :
    Agree (tags.map f) (others.map f) := fun offset => by
  have hsame : ((·.offset == offset) ∘ f) = fun t : Tag => t.offset == offset :=
    funext fun t => by rw [Function.comp_apply, hf]
  rw [List.filter_map, List.filter_map, hsame, h offset]

/-- A tag may as well come after all tags that are later in the stream. -/
theorem agree_of_later (h : ∀ later ∈ tags, tag.offset < later.offset) :
    Agree (tag :: tags) (tags ++ [tag]) := by
  intro offset
  rw [List.filter_append, ← List.singleton_append, List.filter_append]
  by_cases ho : tag.offset = offset
  · have hnone : tags.filter (·.offset == offset) = [] := by
      refine List.filter_eq_nil_iff.mpr fun later hm => ?_
      have := h later hm
      rw [beq_iff_eq]
      omega
    rw [hnone, List.append_nil, List.nil_append]
  · have hnone : [tag].filter (·.offset == offset) = [] := by simp [ho]
    rw [hnone, List.append_nil, List.nil_append]

theorem offset_eq_of_same (h : tag.same other = true) : tag.offset = other.offset := by
  simp only [same, Bool.and_eq_true, beq_iff_eq] at h
  exact h.1.1.1

/-! ## Groups -/

namespace Group

variable {group : Group} {groups : List Group}

theorem count_eq_length (groups : List Group) : count groups = (all groups).length := by
  induction groups with
  | nil => rfl
  | cons group groups ih =>
    unfold all at ih ⊢
    rw [count, ih, List.flatMap_cons, List.length_append]

/-- What is asked of the offset of a tag is asked of its group. -/
theorem filter_tags (group : Group) (keep : Nat → Bool) :
    group.tags.filter (fun tag => keep tag.offset) =
      if keep group.offset then group.tags else [] := by
  split
  · rename_i hkeep
    refine List.filter_eq_self.mpr fun tag ht => ?_
    rwa [group.together tag ht]
  · rename_i hkeep
    refine List.filter_eq_nil_iff.mpr fun tag ht => ?_
    rwa [group.together tag ht]

theorem filter_all (groups : List Group) (keep : Nat → Bool) :
    (all groups).filter (fun tag => keep tag.offset) =
      all (groups.filter fun group => keep group.offset) := by
  unfold all
  induction groups with
  | nil => rfl
  | cons group groups ih =>
    rw [List.flatMap_cons, List.filter_append, ih, filter_tags, List.filter_cons]
    split
    · exact List.flatMap_cons.symm
    · rfl

theorem ordered_all (h : groups.Pairwise (·.offset < ·.offset)) : Ordered (all groups) := by
  refine List.pairwise_flatMap.mpr ⟨fun group _ => ?_, h.imp fun {a b} hlt s hs t ht => ?_⟩
  · refine List.pairwise_of_forall_mem_list fun s hs t ht => ?_
    exact Nat.le_of_eq ((group.together s hs).trans (group.together t ht).symm)
  · rw [a.together s hs, b.together t ht]
    exact Nat.le_of_lt hlt

/-- What is split off at an offset are the groups at it and after it. -/
theorem dropWhile_eq_filter (h : groups.Pairwise (·.offset < ·.offset)) (offset : Nat) :
    groups.dropWhile (·.offset < offset) = groups.filter (offset ≤ ·.offset) := by
  induction groups with
  | nil => rfl
  | cons group groups ih =>
    obtain ⟨hfirst, hrest⟩ := List.pairwise_cons.mp h
    rw [List.dropWhile_cons, List.filter_cons]
    by_cases hlt : group.offset < offset
    · rw [if_pos (decide_eq_true hlt), if_neg (by simpa using hlt), ih hrest]
    · rw [if_neg (by simpa using hlt), if_pos (decide_eq_true (Nat.le_of_not_lt hlt))]
      refine congrArg (group :: ·) (List.filter_eq_self.mpr fun later hm => ?_).symm
      have := hfirst later hm
      exact decide_eq_true (by omega)

/-! ### Insertion -/

theorem mem_all_later {offset : Nat} (h : ∀ later ∈ groups, offset < later.offset)
    (ht : tag ∈ all groups) : offset < tag.offset := by
  obtain ⟨group, hm, ht⟩ := List.mem_flatMap.mp ht
  rw [group.together tag ht]
  exact h group hm

theorem insert_agree (h : groups.Pairwise (·.offset < ·.offset)) :
    Agree (all (insert tag groups)) (all groups ++ [tag]) := by
  induction groups with
  | nil => exact fun _ => rfl
  | cons group groups ih =>
    obtain ⟨hfirst, hrest⟩ := List.pairwise_cons.mp h
    have hall : all (group :: groups) ++ [tag] = group.tags ++ (all groups ++ [tag]) :=
      List.append_assoc ..
    rw [hall]
    unfold insert
    split
    · -- the tag joins its group, in front of all tags of later offsets
      rename_i hoffset
      have hlater : Agree (tag :: all groups) (all groups ++ [tag]) :=
        agree_of_later fun later hm => mem_all_later (fun g hg => hoffset ▸ hfirst g hg) hm
      have hpushed : all (group.push tag hoffset :: groups) = group.tags ++ tag :: all groups :=
        List.append_cons .. |>.symm
      rw [hpushed]
      exact hlater.after group.tags
    · split
      · rename_i hlt
        rw [← hall]
        refine agree_of_later fun later hm => mem_all_later (fun g hg => ?_) hm
        rcases List.mem_cons.mp hg with rfl | hg
        · exact hlt
        · exact Nat.lt_trans hlt (hfirst g hg)
      · exact (ih hrest).after group.tags

/-! ### Hiding -/

theorem not_contains (h : group.offset ≠ tag.offset) : group.contains tag = false := by
  refine List.any_eq_false.mpr fun stored hm hsame => h ?_
  rw [← group.together stored hm]
  exact offset_eq_of_same hsame

theorem any_all (groups : List Group) :
    (all groups).any (·.same tag) = groups.any (·.contains tag) := List.any_flatMap

/-- Only the group at the offset of a tag can hold the like of it. -/
theorem find?_contains (h : groups.Pairwise (·.offset < ·.offset)) (tag : Tag) :
    (groups.find? (·.offset == tag.offset)).any (·.contains tag) = groups.any (·.contains tag) := by
  induction groups with
  | nil => rfl
  | cons group groups ih =>
    obtain ⟨hfirst, hrest⟩ := List.pairwise_cons.mp h
    rw [List.find?_cons, List.any_cons]
    by_cases ho : group.offset = tag.offset
    · have hnone : groups.any (·.contains tag) = false := by
        refine List.any_eq_false.mpr fun later hm => ?_
        have := hfirst later hm
        rw [not_contains (by omega)]
        exact Bool.false_ne_true
      rw [beq_iff_eq.mpr ho, hnone, Bool.or_false]
      rfl
    · rw [beq_false_of_ne ho, not_contains ho, Bool.false_or]
      exact ih hrest

theorem all_hideIn (groups : List Group) (tag : Tag) (consumer : Nat) :
    all (hideIn groups tag consumer) =
      (all groups).map fun stored => if stored.same tag then stored.hideFrom consumer
        else stored := by
  unfold all hideIn
  rw [List.flatMap_map, List.map_flatMap]
  refine List.flatMap_congr fun group _ => ?_
  split
  · rfl
  · rename_i ho
    -- The group lies elsewhere, and none of its tags is the same.
    refine ((List.map_congr_left fun stored hm => if_neg fun hsame => ho ?_).trans
      (List.map_id _)).symm
    rw [← group.together stored hm]
    exact offset_eq_of_same hsame

end Group

/-! ## The index -/

namespace Index

variable {index : Index} {delay capacity : Nat}

theorem ordered (index : Index) : Ordered index.tags := Group.ordered_all index.sorted

theorem size_eq_length (index : Index) : index.size = index.tags.length :=
  index.size_eq.trans (Group.count_eq_length _)

theorem isEmpty_eq (index : Index) : index.isEmpty = index.tags.isEmpty := by
  unfold isEmpty
  rw [size_eq_length, Bool.eq_iff_iff, beq_iff_eq, List.length_eq_zero_iff, List.isEmpty_iff]

theorem insert_agree (index : Index) (tag : Tag) :
    Agree (index.insert tag).tags (index.tags ++ [tag]) := Group.insert_agree index.sorted

/-- **Hiding.** One group is looked at, but it is as if all tags were. -/
theorem hide_eq (index : Index) (tag : Tag) (consumer : Nat) :
    (index.hide tag consumer).1 = index.tags.any (·.same tag) ∧ (index.hide tag consumer).2.tags =
      index.tags.map fun stored => if stored.same tag then stored.hideFrom consumer
        else stored := by
  have hfound := Group.find?_contains index.sorted tag
  have hhidden := Group.all_hideIn index.groups tag consumer
  unfold tags
  rw [Group.any_all, ← hfound, ← hhidden]
  unfold hide
  split
  · rename_i hnone
    refine ⟨by rw [hnone]; rfl, ?_⟩
    -- There is no group at the offset, and all are left as they are.
    have hleft : Group.hideIn index.groups tag consumer = index.groups := by
      refine (List.map_congr_left fun group hm => if_neg fun ho => ?_).trans (List.map_id _)
      exact List.find?_eq_none.mp hnone group hm (beq_iff_eq.mpr ho)
    rw [hleft]
  · rename_i group hsome
    exact ⟨by rw [hsome]; rfl, rfl⟩

theorem hide_agree (h : Agree index.tags tags) (tag : Tag) (consumer : Nat) :
    Agree (index.hide tag consumer).2.tags
      (tags.map fun stored => if stored.same tag then stored.hideFrom consumer else stored) := by
  rw [(index.hide_eq tag consumer).2]
  exact h.map fun t => by split <;> simp

/-- **Splitting off.** No more tags go than there are, so the number that is left is no fault. -/
theorem dropBefore_eq_ok (index : Index) (offset : Nat) :
    ∃ kept, index.dropBefore offset = .ok (index.tags.countP (·.offset < offset), kept) ∧
      kept.tags = index.tags.filter (offset ≤ ·.offset) := by
  have hkept : Group.all (index.groups.dropWhile (·.offset < offset)) =
      index.tags.filter (offset ≤ ·.offset) := by
    rw [Group.dropWhile_eq_filter index.sorted]
    exact (Group.filter_all index.groups (offset ≤ ·)).symm
  -- the groups that go and those that stay make up the index, so their sizes add up
  have hremoved : Group.count (index.groups.takeWhile (·.offset < offset)) =
      index.tags.countP (·.offset < offset) := by
    have hsplit := Group.count_split (·.offset < offset) index.groups
    have hparts := List.length_eq_countP_add_countP (·.offset < offset) (l := index.tags)
    have hlength : Group.count index.groups = index.tags.length := Group.count_eq_length _
    rw [Group.count_eq_length (index.groups.dropWhile _), hkept,
      ← List.countP_eq_length_filter] at hsplit
    simp only [decide_eq_true_eq, Nat.not_lt] at hparts
    omega
  have hle : index.tags.countP (·.offset < offset) ≤ index.size := by
    rw [size_eq_length]
    exact List.countP_le_length
  unfold dropBefore
  dsimp only
  split
  · rename_i fault hfault
    rw [hremoved, Word.sub_eq_ok hle] at hfault
    cases hfault
  · exact ⟨_, congrArg (fun removed => Except.ok (removed, _)) hremoved, hkept⟩

/-- **Pruning.** If its reach is a word, the tags go that lie further back, and their number is
given. -/
theorem prune_eq_ok (index : Index) (time : Nat) (h : delay + capacity < Word.limit) :
    ∃ kept, index.prune time delay capacity =
        .ok (index.tags.countP fun tag => decide (tag.offset + delay + capacity < time), kept) ∧
      kept.tags = index.tags.filter fun tag => !decide (tag.offset + delay + capacity < time) := by
  unfold prune
  rw [Word.add_eq_ok h]
  change ∃ kept, (if time ≤ delay + capacity then Except.ok (0, index) else _) = _ ∧ _
  split
  · -- The time does not reach beyond the first item, and no tag lies before it.
    have hnone : ∀ tag ∈ index.tags, ¬ (tag.offset + delay + capacity < time) :=
      fun tag _ => by omega
    refine ⟨index, ?_, (List.filter_eq_self.mpr fun tag ht => by simpa using hnone tag ht).symm⟩
    rw [List.countP_eq_zero.mpr fun tag ht => by simpa using hnone tag ht]
  · obtain ⟨kept, hdrop, htags⟩ := index.dropBefore_eq_ok (time - (delay + capacity))
    have hpast : ∀ tag : Tag,
        tag.offset < time - (delay + capacity) ↔ tag.offset + delay + capacity < time := by omega
    refine ⟨kept, ?_, ?_⟩
    · simp only [hpast] at hdrop
      exact hdrop
    · simp only [← Nat.not_lt, hpast, decide_not] at htags
      exact htags

theorem reach_of_prune {time : Nat} {pruned : Nat × Index}
    (h : index.prune time delay capacity = .ok pruned) : delay + capacity < Word.limit := by
  unfold prune Word.add at h
  split at h
  · assumption
  · cases h

/-- **A window.** Whole groups are taken; a window that ends before it starts is empty. -/
theorem range_eq (index : Index) (start stop : Nat) : index.range start stop =
    index.tags.filter fun tag => start ≤ tag.offset && tag.offset < stop := by
  have hwhole : ∀ stop, index.tags.filter (fun tag => start ≤ tag.offset && tag.offset < stop) =
      Group.all (index.groups.filter fun group => start ≤ group.offset && group.offset < stop) :=
    fun stop => Group.filter_all index.groups fun offset => start ≤ offset && offset < stop
  unfold range
  split
  · exact (hwhole stop).symm
  · refine (hwhole start).symm.trans (List.filter_congr fun tag _ => ?_)
    rw [Bool.eq_iff_iff]
    simp only [Bool.and_eq_true, decide_eq_true_eq]
    omega

end Index

end StreamBuffer.Tag
