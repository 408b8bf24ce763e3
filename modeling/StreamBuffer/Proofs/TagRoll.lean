import StreamBuffer.Proofs.Postings

/-!
# An index beside a plain list

`index_answers_as_roll`: whatever is inserted, hidden and pruned, an index answers as a list does
that takes new tags at its end, marks a hidden tag where it stands, and drops what is past. The part
of the index in a window is the part of the list in it, sorted by offset, with tags of one offset as
they came. Between the groups of the index and that list stands the order of all tags in the groups,
`Index.tags`, which agrees with the list offset by offset.
-/

namespace StreamBuffer.Tag

inductive Edit where
  | insert (tag : Tag)
  | hide (tag : Tag) (consumer : Nat)
  | prune (time delay capacity : Nat)

namespace Edit

def Reaches : Edit → Prop
  | prune _ delay capacity => delay + capacity < Word.limit
  | _ => True

def perform (index : Index) : Edit → Checked (Answer × Index)
  | insert tag => return (.done, index.insert tag)
  | hide tag consumer =>
    let (found, hidden) := index.hide tag consumer
    return (.told found, hidden)
  | prune time delay capacity => do
    let (removed, kept) ← index.prune time delay capacity
    return (.count removed, kept)

def performAll (index : Index) : List Edit → Checked (List Answer × Index)
  | [] => return ([], index)
  | edit :: edits => do
    let (answer, edited) ← edit.perform index
    let (answers, edited) ← performAll edited edits
    return (answer :: answers, edited)

def enter (roll : List Tag) : Edit → Answer × List Tag
  | insert tag => (.done, roll ++ [tag])
  | hide tag consumer =>
    (.told (roll.any (·.same tag)), roll.map fun stored =>
      if stored.same tag ∧ consumer ∉ stored.hiddenFrom then
        { stored with hiddenFrom := stored.hiddenFrom ++ [consumer] }
      else stored)
  | prune time delay capacity =>
    let past (tag : Tag) : Bool := tag.offset + delay + capacity < time
    (.count (roll.countP past), roll.filter fun tag => !past tag)

def enterAll (roll : List Tag) : List Edit → List Answer × List Tag
  | [] => ([], roll)
  | edit :: edits =>
    let (answer, roll) := edit.enter roll
    let (answers, roll) := enterAll roll edits
    (answer :: answers, roll)

end Edit

variable {index : Index} {roll : List Tag} {tag : Tag}

/-! ## What an index shares with a list that agrees with it -/

theorem Index.range_of_agree (h : Agree index.tags roll) (start stop : Nat) :
    index.range start stop =
      (roll.filter fun tag => start ≤ tag.offset && tag.offset < stop).mergeSort
        (·.offset ≤ ·.offset) := by
  rw [index.range_eq]
  exact (h.filter _).eq_sort (index.ordered.filter _)

/-! ## Edits -/

theorem hide_eq_enter (consumer : Nat) :
    (fun stored : Tag => if stored.same tag then stored.hideFrom consumer else stored) =
    fun stored => if stored.same tag ∧ consumer ∉ stored.hiddenFrom then
      { stored with hiddenFrom := stored.hiddenFrom ++ [consumer] } else stored := by
  funext stored
  unfold hideFrom isHiddenFrom
  by_cases hsame : stored.same tag <;> by_cases hhidden : consumer ∈ stored.hiddenFrom <;>
    simp [hsame, hhidden]

/-- **One edit.** Index and list give the same answer and agree afterwards. -/
theorem Edit.perform_eq_enter {edit : Edit} (hreach : edit.Reaches) (h : Agree index.tags roll) :
    ∃ edited, edit.perform index = .ok ((edit.enter roll).1, edited) ∧
    Agree edited.tags (edit.enter roll).2 := by
  cases edit with
  | insert tag => exact ⟨_, rfl, (index.insert_agree tag).trans (h.append [tag])⟩
  | hide tag consumer =>
    have hhide := Index.hide_agree h tag consumer
    rw [hide_eq_enter] at hhide
    have hfound : (index.hide tag consumer).1 = roll.any (·.same tag) := by
      rw [(index.hide_eq tag consumer).1, (h.perm index.ordered).any_eq]
    exact ⟨_, congrArg (fun found => Except.ok (Answer.told found, _)) hfound, hhide⟩
  | prune time delay capacity =>
    obtain ⟨kept, hprune, htags⟩ := index.prune_eq_ok time hreach
    refine ⟨kept, ?_, ?_⟩
    · rw [(h.perm index.ordered).countP_eq] at hprune
      exact bind_ok hprune
    · rw [htags]
      exact h.filter _

theorem Edit.performAll_eq_enterAll {edits : List Edit} (hreach : ∀ edit ∈ edits, edit.Reaches)
    (h : Agree index.tags roll) :
    ∃ edited, performAll index edits = .ok ((enterAll roll edits).1, edited) ∧
      Agree edited.tags (enterAll roll edits).2 := by
  induction edits generalizing index roll with
  | nil => exact ⟨index, rfl, h⟩
  | cons edit edits ih =>
    obtain ⟨edited, hedit, hagree⟩ := perform_eq_enter (hreach edit (List.mem_cons_self ..)) h
    obtain ⟨last, hrest, hlast⟩ := ih (fun e he => hreach e (List.mem_cons_of_mem _ he)) hagree
    refine ⟨last, ?_, hlast⟩
    unfold performAll
    rw [bind_ok hedit]
    exact bind_ok hrest

/-- **The index is its roll, sorted.** An index that starts empty never breaks off, gives the
answers of the list, and yields of every window what the list has in it; its size is the length of
the list. -/
theorem index_answers_as_roll (edits : List Edit) (hreach : ∀ edit ∈ edits, edit.Reaches) :
    ∃ index, Edit.performAll {} edits = .ok ((Edit.enterAll [] edits).1, index) ∧
      (∀ start stop, index.range start stop =
        ((Edit.enterAll [] edits).2.filter fun tag =>
          start ≤ tag.offset && tag.offset < stop).mergeSort (·.offset ≤ ·.offset)) ∧
      index.size = (Edit.enterAll [] edits).2.length ∧
      index.isEmpty = (Edit.enterAll [] edits).2.isEmpty := by
  have hempty : Agree ({} : Index).tags [] := fun _ => rfl
  obtain ⟨index, hrun, hagree⟩ := Edit.performAll_eq_enterAll hreach hempty
  have hperm := hagree.perm index.ordered
  refine ⟨index, hrun, Index.range_of_agree hagree, ?_, ?_⟩
  · rw [index.size_eq_length]
    exact hperm.length_eq
  · rw [index.isEmpty_eq]
    exact hperm.isEmpty_eq

/-- Two tags at one offset and one before them; the first is hidden, and the early one is pruned. -/
theorem index_answers_as_roll_pruned : ∃ index,
    Edit.performAll {} [.insert { offset := 5, key := "first" },
        .insert { offset := 2, key := "early" }, .insert { offset := 5, key := "second" },
        .hide { offset := 5, key := "first" } 7, .prune 12 1 8] =
      .ok ([.done, .done, .done, .told true, .count 1], index) ∧
    index.range 2 6 = [{ offset := 5, key := "first", hiddenFrom := [7] },
      { offset := 5, key := "second" }] ∧
    index.range 6 2 = [] ∧ index.size = 2 := by
  obtain ⟨index, hrun, hrange, hsize, _⟩ := index_answers_as_roll
    [.insert { offset := 5, key := "first" }, .insert { offset := 2, key := "early" },
      .insert { offset := 5, key := "second" }, .hide { offset := 5, key := "first" } 7,
      .prune 12 1 8]
    (by simp [Edit.Reaches, Word.limit])
  refine ⟨index, hrun, (hrange 2 6).trans ?_, (hrange 6 2).trans ?_, hsize⟩
  · cbv
  · cbv

end StreamBuffer.Tag
