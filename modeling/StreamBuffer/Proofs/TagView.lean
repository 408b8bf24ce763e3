import StreamBuffer.Proofs.Postings

/-!
# What a reader sees of the tags

`reader_tags_are_exact`: a consumer that asks a reader for the tags of a window is given exactly the
stored tags whose offset, later by the delay of the reader, lies in the window, and that were
neither added as hidden from it nor removed by it. They come ordered by offset and then by
insertion.
-/

namespace StreamBuffer

def Tag.shown (tag : Tag) (delay : Nat) : Tag :=
  { tag with offset := tag.offset + delay, hiddenFrom := [] }

def Posting.isVisible (posting : Posting) (delay start stop consumer : Nat) : Bool :=
  start ≤ posting.tag.offset + delay ∧ posting.tag.offset + delay < stop ∧
    consumer ∉ posting.tag.hiddenFrom ∧ consumer ∉ posting.removers

/-- What is seen of the postings: ordered by offset, and of one offset in the order of insertion. -/
def Posting.view (postings : List Posting) (delay start stop consumer : Nat) : List Tag :=
  ((postings.filter (·.isVisible delay start stop consumer)).mergeSort
    (·.tag.offset ≤ ·.tag.offset)).map
    (·.tag.shown delay)

variable {site : Site} {postings : List Posting} {reader : Reader}
variable {number start stop delay consumer : Nat}

/-! ## The stored tags -/

namespace Tag

def isVisible (tag : Tag) (delay start stop consumer : Nat) : Bool :=
  start ≤ tag.offset + delay ∧ tag.offset + delay < stop ∧ tag.isHiddenFrom consumer = false

theorem shown_hideFrom (tag : Tag) (consumer : Nat) :
    (tag.hideFrom consumer).shown delay = tag.shown delay := by
  unfold shown hideFrom
  split <;> rfl

theorem Index.range_filter (index : Index) (delay start stop consumer : Nat) :
    (index.range (start - delay) (stop - delay)).filter (fun tag => !tag.isHiddenFrom consumer) =
      index.tags.filter (·.isVisible delay start stop consumer) := by
  rw [range_eq, List.filter_filter]
  refine List.filter_congr fun tag _ => ?_
  unfold isVisible
  -- Where subtracting the delay stops at zero, no tag crosses the end of the window.
  have hwindow : start - delay ≤ tag.offset ∧ tag.offset < stop - delay ↔
      start ≤ tag.offset + delay ∧ tag.offset + delay < stop := by omega
  grind

end Tag

theorem Posting.isVisible_stored (posting : Posting) :
    posting.stored.isVisible delay start stop consumer =
      posting.isVisible delay start stop consumer := by
  unfold isVisible Tag.isVisible
  rw [stored_eq Tag.offset Tag.offset_hideFrom, isHiddenFrom_stored]
  simp [Tag.isHiddenFrom]

theorem Site.Stores.visible (h : site.Stores postings) :
    (site.buffer.tags.tags.filter (·.isVisible delay start stop consumer)).map (·.shown delay) =
      Posting.view postings delay start stop consumer := by
  have hagree := Tag.Agree.filter h (·.isVisible delay start stop consumer)
  rw [List.filter_map] at hagree
  simp only [Function.comp_def, Posting.isVisible_stored] at hagree
  have hsorted := hagree.eq_sort (site.buffer.tags.ordered.filter _)
  have hkeys : ∀ a b : Posting, decide (a.tag.offset ≤ b.tag.offset) =
      decide (a.stored.offset ≤ b.stored.offset) :=
    fun a b => by
      rw [Posting.stored_eq Tag.offset Tag.offset_hideFrom,
        Posting.stored_eq Tag.offset Tag.offset_hideFrom]
  rw [hsorted, ← List.map_mergeSort fun a _ b _ => hkeys a b, List.map_map]
  exact List.map_congr_left fun posting _ => posting.stored_eq (·.shown delay) Tag.shown_hideFrom

theorem Site.tags_of_stores (h : site.Stores postings)
    (hr : site.buffer.cursors.reader? number = some reader) (hstop : stop < Word.limit)
    (consumer : Nat) : Site.tags number start stop consumer site =
      .ok (Posting.view postings reader.sampleDelay start stop consumer) site := by
  have hshown :
      ∀ tag ∈ site.buffer.tags.tags.filter (·.isVisible reader.sampleDelay start stop consumer),
      (do return { tag with offset := ← Word.add tag.offset reader.sampleDelay, hiddenFrom := [] } :
        Checked Tag) = .ok (tag.shown reader.sampleDelay) := fun tag ht => by
    have hvisible : tag.isVisible reader.sampleDelay start stop consumer = true :=
      (List.mem_filter.mp ht).2
    have hlt : tag.offset + reader.sampleDelay < stop := (of_decide_eq_true hvisible).2.1
    rw [Word.add_eq_ok (Nat.lt_trans hlt hstop)]
    rfl
  unfold Site.tags
  rw [Action.bind_of_ok _ (reader_eq hr)]
  change (liftM (List.mapM _ (List.filter _ (site.buffer.tags.range _ _)) : Checked (List Tag)) :
    Action Site _) site = _
  rw [Tag.Index.range_filter, mapM_eq_ok hshown, h.visible]
  rfl

/-! ## Removals by others -/

theorem Posting.view_remove {other : Nat} (ho : other ≠ consumer) (old : Tag)
    (postings : List Posting) :
    view (postings.map (·.remove old other)) delay start stop consumer =
      view postings delay start stop consumer := by
  have htag : ∀ posting : Posting, (posting.remove old other).tag = posting.tag := fun posting => by
    unfold remove
    split <;> rfl
  have hvisible : ∀ posting : Posting,
      (posting.remove old other).isVisible delay start stop consumer =
      posting.isVisible delay start stop consumer := fun posting => by
    unfold isVisible remove
    split
    · simp [Ne.symm ho]
    · rfl
  unfold view
  rw [List.filter_map, ← List.map_mergeSort fun a _ b _ => by rw [htag, htag], List.map_map]
  simp only [Function.comp_def, hvisible, htag]

variable {backend : Backend} {request : Request} {id : Nat} {machine allocated : Machine}
variable {buffer : Buffer}

/-- **Exact view.** Whatever was done to the buffer, a reader shows the consumer the stored tags of
the window that were neither added as hidden from it nor removed by it, and the query changes
nothing. What others remove does not change the answer. -/
theorem reader_tags_are_exact
    (ha : Buffer.allocate backend request id machine = .ok buffer allocated)
    (hfiled : Filed ⟨allocated, buffer⟩ postings site)
    (hr : site.buffer.cursors.reader? number = some reader) (hstop : stop < Word.limit)
    (start consumer : Nat) :
    Site.tags number start stop consumer site =
        .ok (Posting.view postings reader.sampleDelay start stop consumer) site ∧
      ∀ old other, other ≠ consumer →
        Site.tags number start stop consumer ((Call.untag old other).after site) =
          .ok (Posting.view postings reader.sampleDelay start stop consumer)
            ((Call.untag old other).after site) := by
  have htags : buffer.tags = {} := congrArg Site.Face.tags (Buffer.allocate_face ha).2
  have hstores := Filed.stores htags hfiled
  refine ⟨Site.tags_of_stores hstores hr hstop consumer, fun old other ho => ?_⟩
  rw [← Posting.view_remove ho old]
  exact Site.tags_of_stores (hstores.untag old other) hr hstop consumer

/-- There are two tags at one offset, the first of them removed by a consumer, and one before them.
The output of the reader lags by three items. -/
def Site.tagged : Site :=
  [.attach 1 0, .declareDelay 0 3, .tag { offset := 5, key := "first" },
    .tag { offset := 2, key := "early" },
    .tag { offset := 5, key := "second", hiddenFrom := [6] },
    .untag { offset := 5, key := "first" } 7].foldl
    (fun site call => Call.after call site) (Site.onHeap 8 1)

theorem reader_tags_are_exact_heap :
    Filed (Site.onHeap 8 1)
      [⟨{ offset := 5, key := "first" }, [7]⟩, ⟨{ offset := 2, key := "early" }, []⟩,
        ⟨{ offset := 5, key := "second", hiddenFrom := [6] }, []⟩] .tagged ∧
      Site.tags 0 5 9 7 .tagged = .ok
        [{ offset := 5, key := "early" }, { offset := 8, key := "second" }] .tagged ∧
      Site.tags 0 5 9 6 .tagged =
        .ok [{ offset := 5, key := "early" }, { offset := 8, key := "first" }] .tagged := by
  have hallocate := Buffer.allocate_onHeap 8 1 1 (by decide)
  have hstart : Filed (Site.onHeap 8 1) [] _ := .refl
  have hattached := hstart.tail (.call (.attach 1 0)) (by decide)
  have hdelayed := hattached.tail (.call (.declareDelay 0 3)) (by decide)
  have hfirst := hdelayed.tail (.call (.tag { offset := 5, key := "first" })) (by decide)
  have hearly := hfirst.tail (.call (.tag { offset := 2, key := "early" })) (by decide)
  have hsecond :=
    hearly.tail (.call (.tag { offset := 5, key := "second", hiddenFrom := [6] })) (by decide)
  have hremoved := hsecond.tail (.call (.untag { offset := 5, key := "first" } 7)) (by decide)
  have hfiled : Filed (Site.onHeap 8 1)
      [⟨{ offset := 5, key := "first" }, [7]⟩, ⟨{ offset := 2, key := "early" }, []⟩,
      ⟨{ offset := 5, key := "second", hiddenFrom := [6] }, []⟩] .tagged := hremoved
  have hreader : Site.tagged.buffer.cursors.reader? 0 = some ⟨0, 0, 0, 0, 3⟩ := rfl
  have hview := reader_tags_are_exact hallocate hfiled hreader (show 9 < Word.limit by decide) 5
  refine ⟨hfiled, (hview 7).1.trans ?_, (hview 6).1.trans ?_⟩
  · cbv
  · cbv

end StreamBuffer
