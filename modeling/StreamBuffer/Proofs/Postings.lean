import StreamBuffer.Proofs.Pruning

/-!
# Which tags are stored

A posting is a tag as it was added, with the consumers that removed it while it was stored. Whatever
is done to a buffer, its index holds the tags of its postings: ordered by offset, those of one
offset in the order in which they were added, and each hidden from whoever removed it.
-/

namespace StreamBuffer

/-! ## Hiding -/

namespace Tag

@[simp] theorem same_hideFrom (tag old : Tag) (consumer : Nat) :
    (tag.hideFrom consumer).same old = tag.same old := by
  unfold hideFrom
  split <;> rfl

@[simp] theorem isHiddenFrom_hideFrom (tag : Tag) (other consumer : Nat) :
    (tag.hideFrom other).isHiddenFrom consumer =
      (tag.isHiddenFrom consumer || consumer == other) := by
  unfold hideFrom
  split
  · by_cases he : consumer = other
    · subst he
      simp [*]
    · simp [he]
  · rw [Bool.eq_iff_iff]
    simp [isHiddenFrom]

end Tag

/-- A tag as it was added, and the consumers that removed it while it was stored. -/
structure Posting where
  tag : Tag
  removers : List Nat := []

namespace Posting

def remove (posting : Posting) (old : Tag) (consumer : Nat) : Posting :=
  if posting.tag.same old then { posting with removers := posting.removers ++ [consumer] }
  else posting

def stored (posting : Posting) : Tag := posting.removers.foldl Tag.hideFrom posting.tag

theorem stored_eq {β : Type} (look : Tag → β)
    (h : ∀ tag consumer, look (Tag.hideFrom tag consumer) = look tag) (posting : Posting) :
    look posting.stored = look posting.tag := by
  obtain ⟨tag, removers⟩ := posting
  unfold stored
  induction removers generalizing tag with
  | nil => rfl
  | cons consumer rest ih => exact (ih (tag.hideFrom consumer)).trans (h tag consumer)

theorem isHiddenFrom_stored (posting : Posting) (consumer : Nat) :
    posting.stored.isHiddenFrom consumer =
    (posting.tag.isHiddenFrom consumer || posting.removers.contains consumer) := by
  obtain ⟨tag, removers⟩ := posting
  unfold stored
  induction removers generalizing tag with
  | nil => simp
  | cons other rest ih =>
    have hrest := ih (tag.hideFrom other)
    dsimp only [List.foldl_cons] at hrest ⊢
    rw [hrest, Tag.isHiddenFrom_hideFrom, List.contains_cons, Bool.or_assoc]

theorem stored_remove (posting : Posting) (old : Tag) (consumer : Nat) :
    (posting.remove old consumer).stored =
    if posting.stored.same old then posting.stored.hideFrom consumer else posting.stored := by
  rw [stored_eq (·.same old) fun tag c => tag.same_hideFrom old c]
  unfold remove
  split
  · exact List.foldl_append
  · rfl

end Posting

/-! ## What an act does to the tags -/

def Action.Preserves {σ α γ : Type} (look : σ → γ) (action : Action σ α) : Prop :=
  ∀ s, action.Leaves s fun t => look t = look s

namespace Action.Preserves

variable {σ α β γ : Type} {look : σ → γ} {action : Action σ α} {next : α → Action σ β}

theorem pure {a : α} : (Pure.pure a : Action σ α).Preserves look := fun _ => rfl

theorem bind (h : action.Preserves look) (hn : ∀ a, (next a).Preserves look) :
    (action >>= next).Preserves look :=
  fun s => .bind (h s) (fun _ ht => ht) fun a t ht => (hn a t).mono fun _ hu => hu.trans ht

theorem get_bind {next : σ → Action σ β} (h : ∀ s, (next s).Preserves look) :
    (get >>= next).Preserves look :=
  fun s => .get_bind (h s s)

theorem lift {checked : Checked α} : (liftM checked : Action σ α).Preserves look :=
  fun _ => .lift rfl

theorem lift_bind {checked : Checked α} (h : ∀ a, (next a).Preserves look) :
    (liftM checked >>= next : Action σ β).Preserves look := bind lift h

theorem attempt_bind {attempt : Attempt α} (h : ∀ a, (next a).Preserves look) :
    (liftM attempt >>= next : Action σ β).Preserves look :=
    fun s => .attempt_bind rfl fun a _ => h a s

end Action.Preserves

namespace Site

abbrev KeepsTags {α : Type} (action : Action Site α) : Prop :=
  action.Preserves fun site => site.buffer.tags

variable {α β : Type} {id items : Nat}

theorem setCursors_keepsTags (cursors : Cursors) : KeepsTags (setCursors cursors) := fun _ => rfl

theorem log_keepsTags (event : Event) : KeepsTags (log event) := fun _ => rfl

theorem of_face {action : Action Site α}
    (h : ∀ site, action.Leaves site fun after => after.face = site.face) :
    KeepsTags action := fun site => (h site).mono fun _ he => congrArg Face.tags he

theorem of_shifts {action : Action Site α} (h : ∀ site, action.Leaves site (site.Shifts .unread)) :
    KeepsTags action :=
  fun site => (h site).mono fun _ hs => congrArg Face.tags hs.face_eq

theorem forM_log_keepsTags (events : List Event) : KeepsTags (events.forM log) :=
  of_face (forM_log_face events)

theorem reader_keepsTags {next : Reader → Action Site β} (h : ∀ reader, KeepsTags (next reader)) :
    KeepsTags (reader id >>= next) := fun site => reader_leaves rfl fun reader _ => h reader site

theorem advance_keepsTags : KeepsTags (advance items) :=
  .get_bind fun _ => .lift_bind fun ⟨cursors, event⟩ => .bind (setCursors_keepsTags cursors)
    fun _ => log_keepsTags event

theorem write_keepsTags (source : Nat → UInt8) : KeepsTags (write items source) :=
  .get_bind fun _ => .bind (of_face fun site => store_face site _) fun _ =>
    .bind (of_face fun site => post_face site items) fun _ => advance_keepsTags

theorem attach_keepsTags (history delay : Nat) : KeepsTags (attach history delay) :=
  .get_bind fun _ => .attempt_bind
    fun ⟨_, cursors, events⟩ => .bind (setCursors_keepsTags cursors) fun _ =>
    .bind (forM_log_keepsTags events) fun _ => .pure

theorem raiseHistory_keepsTags (history delay : Nat) : KeepsTags (raiseHistory history delay) :=
  .get_bind fun _ => .attempt_bind fun _ => .lift_bind fun ⟨cursors, events⟩ =>
    .bind (setCursors_keepsTags cursors) fun _ => forM_log_keepsTags events

theorem detach_keepsTags : KeepsTags (detach id) :=
  .bind (reader_keepsTags fun _ => .pure) fun _ => .get_bind fun _ => .lift_bind
    fun ⟨cursors, event⟩ =>
    .bind (setCursors_keepsTags cursors) fun _ => log_keepsTags event

theorem read_keepsTags : KeepsTags (read id items) :=
  reader_keepsTags fun _ => .get_bind fun _ => .lift_bind fun ⟨cursors, event⟩ =>
    .bind (setCursors_keepsTags cursors) fun _ => .bind (log_keepsTags event) fun _ =>
      .lift_bind fun cursors => setCursors_keepsTags cursors

theorem supply_keepsTags : KeepsTags (supply id) :=
  reader_keepsTags fun _ => .get_bind fun _ => .lift

theorem declareDelay_keepsTags (delay : Nat) : KeepsTags (declareDelay id delay) :=
  reader_keepsTags fun _ => .get_bind fun _ => .lift_bind fun ⟨cursors, events⟩ =>
    .bind (setCursors_keepsTags cursors) fun _ => forM_log_keepsTags events

theorem tags_keepsTags (start stop consumer : Nat) : KeepsTags (tags id start stop consumer) :=
  reader_keepsTags fun _ => .get_bind fun _ => .lift

theorem isInputBlockedAt_keepsTags (required readIndex : Nat) :
    KeepsTags (isInputBlockedAt required readIndex) :=
  .get_bind fun _ => fun _ => isFlat_leaves (fun _ => .pure rfl) fun _ => .pure rfl

theorem isInputBlocked_keepsTags (required : Nat) : KeepsTags (isInputBlocked id required) :=
  fun site =>
  isFlat_leaves
    (fun _ => reader_keepsTags
      (fun reader => isInputBlockedAt_keepsTags required reader.readIndex) site)
    fun _ => .pure rfl

end Site

/-- The act drops the tag, which is neither one that it adds nor hidden by it. -/
def Act.drops (act : Act) (site : Site) (tag : Tag) : Bool :=
  match act with
  | .call (.prune time) =>
    tag.offset + site.buffer.cursors.maxDelay + site.buffer.geometry.capacity < time
  | .call .space | .call (.advance _) | .call (.produce ..) => site.buffer.Prunes tag
  | .call (.isOutputBlocked _) => site.buffer.geometry.mapping = .single ∧ site.buffer.Prunes tag
  | _ => false

def Act.discards (act : Act) (site : Site) (tag : Tag) : Bool :=
  site.buffer.Reaches && act.drops site tag

/-- The postings after an act, in the order in which they were added. -/
def Act.file (act : Act) (site : Site) (postings : List Posting) : List Posting :=
  match act with
  | .call (.tag new) => postings ++ [⟨new, []⟩]
  | .call (.untag old consumer) => postings.map (·.remove old consumer)
  | act => postings.filter fun posting => !act.drops site posting.tag

abbrev Site.Sheds (site : Site) (act : Act) (after : Site) : Prop :=
  after.buffer.tags.tags = site.buffer.tags.tags.filter fun tag => !act.discards site tag

namespace Site

variable {site after : Site} {act : Act} {α : Type}

theorem sheds_none (he : after.buffer.tags = site.buffer.tags)
    (hd : ∀ tag, act.drops site tag = false) : site.Sheds act after := by
  have hkept : site.buffer.tags.tags.filter (fun tag => !act.discards site tag) =
      site.buffer.tags.tags :=
    List.filter_eq_self.mpr fun tag _ => by rw [Act.discards, hd, Bool.and_false]; rfl
  unfold Sheds
  rw [hkept, he]

theorem KeepsTags.sheds {action : Action Site α} (h : KeepsTags action)
    (hd : ∀ tag, act.drops site tag = false) :
    action.Leaves site (site.Sheds act) := (h site).mono fun _ he => sheds_none he hd

theorem Asked.sheds {limits : Limits} (ha : site.Asked limits after)
    (hd : ∀ tag, act.drops site tag = decide (site.buffer.Prunes tag)) : site.Sheds act after := by
  unfold Sheds Act.discards
  simp only [hd, ← Bool.decide_and]
  exact ha.tags_left

theorem space_sheds (hd : ∀ tag, act.drops site tag = decide (site.buffer.Prunes tag)) :
    space.Leaves site (site.Sheds act) := by
  have hasks : space.Leaves site (site.Asked .unread) := space_asks site
  exact hasks.mono fun after ha => ha.sheds hd

theorem prune_sheds {time : Nat} : (prune time).Leaves site (site.Sheds (.call (.prune time))) := by
  unfold prune
  by_cases hreach : site.buffer.Reaches
  · obtain ⟨kept, hprune, htags⟩ := site.buffer.tags.prune_eq_ok time hreach
    refine .get_bind (Action.Ensures.lift_bind hprune (.modify_bind ?_))
    have hkeep : (fun tag : Tag => !(Act.call (.prune time)).discards site tag) = fun tag =>
        !decide (tag.offset + site.buffer.cursors.maxDelay + site.buffer.geometry.capacity <
          time) := by
      funext tag
      rw [Act.discards, decide_eq_true hreach, Bool.true_and]
      rfl
    unfold Sheds
    rw [hkeep]
    split <;> exact htags
  · have hnone : site.Sheds (.call (.prune time)) site := by
      unfold Sheds Act.discards
      rw [decide_eq_false hreach]
      simp
    exact .get_bind (.lift_bind hnone fun _ hk => absurd (Tag.Index.reach_of_prune hk) hreach)

/-- Room was asked for first, and what follows keeps the tags. -/
theorem space_bind_sheds {next : Nat → Action Site α}
    (hd : ∀ tag, act.drops site tag = decide (site.buffer.Prunes tag))
    (hn : ∀ room, KeepsTags (next room)) :
    (space >>= next).Leaves site (site.Sheds act) :=
  .bind (space_sheds hd) (fun _ hs => hs) fun room mid hs => (hn room mid).mono fun _ he =>
    (congrArg Tag.Index.tags he).trans hs

end Site

variable {site after : Site} {act : Act} {postings : List Posting}

/-- **Shedding.** Acts that add and hide no tag drop those that are past, and keep the others. -/
theorem Call.sheds {call : Call} (hn : ∀ new, call ≠ .tag new)
    (hu : ∀ old consumer, call ≠ .untag old consumer) :
    call.perform.Leaves site (site.Sheds (.call call)) := by
  have keeps : ∀ {α} {action : Action Site α} {f : α → Answer}, Site.KeepsTags action →
      (∀ tag, (Act.call call).drops site tag = false) →
      (action >>= fun a => pure (f a)).Leaves site (site.Sheds (.call call)) :=
      fun hk hd => (hk.sheds hd).map
  cases call with
  | space => exact (Site.space_sheds fun _ => rfl).map
  | advance items =>
    exact Site.space_bind_sheds (fun _ => rfl) fun room => .bind Site.advance_keepsTags
      fun _ => .pure
  | produce items multiple source =>
    unfold perform Site.produce
    simp only [bind_assoc]
    exact Site.space_bind_sheds (fun _ => rfl) fun room => .bind (Site.write_keepsTags source)
      fun _ => .pure
  | write items source => exact keeps (Site.write_keepsTags source) fun _ => rfl
  | attach history delay => exact keeps (Site.attach_keepsTags history delay) fun _ => rfl
  | raiseHistory history delay =>
    exact keeps (Site.raiseHistory_keepsTags history delay) fun _ => rfl
  | detach id => exact keeps Site.detach_keepsTags fun _ => rfl
  | read id items => exact keeps Site.read_keepsTags fun _ => rfl
  | supply id => exact keeps Site.supply_keepsTags fun _ => rfl
  | declareDelay id delay => exact keeps (Site.declareDelay_keepsTags delay) fun _ => rfl
  | unblockInput id required =>
    exact keeps (Site.of_shifts fun site => Site.unblockInput_shifts site id required) fun _ => rfl
  | unblockInputAt required available readIndex =>
    exact keeps (Site.of_shifts fun _ => Site.unblockInputAt_shifts fun plan hp => .wish trivial hp)
      fun _ => rfl
  | unblockOutput multiple force =>
    exact keeps (Site.of_shifts fun site => Site.unblockOutput_shifts site multiple force)
      fun _ => rfl
  | isInputBlocked id required => exact keeps (Site.isInputBlocked_keepsTags required) fun _ => rfl
  | isInputBlockedAt required readIndex =>
    exact keeps (Site.isInputBlockedAt_keepsTags required readIndex) fun _ => rfl
  | isOutputBlocked multiple =>
    -- On a single mapping the query first asks for room, and prunes there.
    cases hm : site.buffer.geometry.mapping with
    | single =>
      have hasks : (Site.isOutputBlocked multiple).Leaves site (site.Asked .unread) :=
        Site.isOutputBlocked_asks hm multiple
      exact Action.Leaves.map
        (hasks.mono fun after ha => ha.sheds fun tag => by simp only [Act.drops, hm, true_and])
    | double =>
      have hsame := Site.isOutputBlocked_same hm multiple
      refine Action.Leaves.map (hsame.mono fun after he => Site.sheds_none (he ▸ rfl) fun tag => ?_)
      unfold Act.drops
      simp [hm]
  | tag new => exact absurd rfl (hn new)
  | untag old consumer => exact absurd rfl (hu old consumer)
  | prune time => exact Site.prune_sheds.map
  | tags id start stop consumer =>
    exact keeps (Site.tags_keepsTags start stop consumer) fun _ => rfl
  | setDone done => exact keeps (fun _ => rfl) fun _ => rfl

theorem Act.sheds (hn : ∀ new, act ≠ .call (.tag new))
    (hu : ∀ old consumer, act ≠ .call (.untag old consumer)) :
    site.Sheds act (act.after site) := by
  have keeps : ∀ {action : Action Site PUnit}, Site.KeepsTags action →
      (∀ tag, act.drops site tag = false) →
      (action >>= fun _ => pure Answer.done).Leaves site (site.Sheds act) :=
      fun hk hd => (hk.sheds hd).map
  apply Act.after_of
  cases act with
  | call call =>
    exact Call.sheds (fun new he => hn new (he ▸ rfl))
      fun old consumer he => hu old consumer (he ▸ rfl)
  | store data => exact keeps (Site.of_face fun site => Site.store_face site data) fun _ => rfl
  | post items => exact keeps (Site.of_face fun site => Site.post_face site items) fun _ => rfl
  | move items => exact keeps Site.advance_keepsTags fun _ => rfl
  | fault device on => exact keeps (fun _ => rfl) fun _ => rfl

/-! ## Runs -/

def Site.Stores (site : Site) (postings : List Posting) : Prop :=
  Tag.Agree site.buffer.tags.tags (postings.map Posting.stored)

theorem Act.discards_stored (posting : Posting) :
    act.discards site posting.stored = act.discards site posting.tag := by
  refine Posting.stored_eq (act.discards site) (fun tag consumer => ?_) posting
  unfold discards drops Buffer.Prunes
  simp only [Tag.offset_hideFrom]

theorem Site.Sheds.stores (hs : site.Sheds act after) (h : site.Stores postings) :
    after.Stores (postings.filter fun posting => !act.discards site posting.tag) := by
  have hfiltered := Tag.Agree.filter h fun tag => !act.discards site tag
  rw [List.filter_map] at hfiltered
  simp only [Function.comp_def, Act.discards_stored] at hfiltered
  unfold Stores
  rw [hs]
  exact hfiltered

theorem Site.Stores.tag (h : site.Stores postings) (new : Tag) :
    ((Call.tag new).after site).Stores (postings ++ [⟨new, []⟩]) := by
  have hinsert : Tag.Agree (site.buffer.tags.insert new).tags
      (postings.map Posting.stored ++ [new]) :=
    (site.buffer.tags.insert_agree new).trans (Tag.Agree.append h [new])
  unfold Site.Stores
  rw [List.map_append]
  exact hinsert

theorem Site.Stores.untag (h : site.Stores postings) (old : Tag) (consumer : Nat) :
    ((Call.untag old consumer).after site).Stores (postings.map (·.remove old consumer)) := by
  have hhide := Tag.Index.hide_agree h old consumer
  unfold Site.Stores
  rw [List.map_map] at hhide ⊢
  simp only [Function.comp_def, Posting.stored_remove] at hhide ⊢
  exact hhide

def Act.fate (act : Act) (site : Site) (posting : Posting) : Option Posting :=
  match act with
  | .call (.untag old consumer) => some (posting.remove old consumer)
  | act => if act.discards site posting.tag then none else some posting

def Act.posted : Act → List Posting
  | .call (.tag new) => [⟨new, []⟩]
  | _ => []

theorem Act.filterMap_fate (hu : ∀ old consumer, act ≠ .call (.untag old consumer))
    (postings : List Posting) :
    postings.filterMap (act.fate site) =
      postings.filter fun posting => !act.discards site posting.tag := by
  have hfate : act.fate site = fun posting => if act.discards site posting.tag then none
      else some posting := by
    unfold fate
    split
    · exact absurd rfl (hu _ _)
    · rfl
  rw [hfate]
  induction postings with
  | nil => rfl
  | cons posting rest ih =>
    rw [List.filterMap_cons, List.filter_cons, ih]
    cases act.discards site posting.tag <;> rfl

/-- **One act.** What it does to the postings, it does to the index. -/
theorem Act.stores (h : site.Stores postings) :
    (act.after site).Stores (postings.filterMap (act.fate site) ++ act.posted) := by
  have hsheds : (∀ new, act ≠ .call (.tag new)) →
      (∀ old consumer, act ≠ .call (.untag old consumer)) →
      (act.after site).Stores (postings.filterMap (act.fate site)) := fun hn hu => by
    rw [filterMap_fate hu]
    exact (Act.sheds hn hu).stores h
  cases act with
  | call call =>
    cases call with
    | tag new =>
      have hkept : postings.filterMap ((Act.call (.tag new)).fate site) = postings := by
        rw [filterMap_fate fun _ _ he => Call.noConfusion (Act.call.inj he)]
        exact List.filter_eq_self.mpr fun posting _ => congrArg not (Bool.and_false _)
      rw [hkept]
      exact h.tag new
    | untag old consumer =>
      have hremoved : postings.filterMap ((Act.call (.untag old consumer)).fate site) ++ [] =
          postings.map (·.remove old consumer) := by
        rw [List.append_nil]
        exact congrFun List.filterMap_eq_map postings
      unfold posted
      rw [hremoved]
      exact h.untag old consumer
    | _ => exact List.append_nil _ ▸ hsheds nofun nofun
  | _ => exact List.append_nil _ ▸ hsheds nofun nofun

/-- Where prunings do not break off, the postings are those that are filed. -/
theorem Act.file_eq (hdelay : site.buffer.Reaches) :
    act.file site postings = postings.filterMap (act.fate site) ++ act.posted := by
  have hdiscards : ∀ tag, act.discards site tag = act.drops site tag := fun tag => by
    rw [discards, decide_eq_true hdelay, Bool.true_and]
  have hrest : (∀ old consumer, act ≠ .call (.untag old consumer)) →
      postings.filter (fun posting => !act.drops site posting.tag) =
        postings.filterMap (act.fate site) := fun hu => by
    rw [filterMap_fate hu]
    simp only [hdiscards]
  cases act with
  | call call =>
    cases call with
    | tag new =>
      rw [← hrest fun _ _ he => Call.noConfusion (Act.call.inj he)]
      exact congrArg (· ++ _) (List.filter_eq_self.mpr fun _ _ => rfl).symm
    | untag old consumer =>
      exact ((List.append_nil _).trans (congrFun List.filterMap_eq_map postings)).symm
    | _ => exact (hrest nofun).trans (List.append_nil _).symm
  | _ => exact (hrest nofun).trans (List.append_nil _).symm

/-- Acts one after another, and the postings they leave. The reach of a pruning is always a word. -/
inductive Filed (start : Site) : List Posting → Site → Prop where
  | refl : Filed start [] start
  | tail {postings : List Posting} {site : Site} (act : Act) (filed : Filed start postings site)
      (hdelay : site.buffer.cursors.maxDelay + site.buffer.geometry.capacity < Word.limit) :
      Filed start (act.file site postings) (act.after site)

theorem Filed.stores {start : Site} (h : start.buffer.tags = {})
    (hfiled : Filed start postings site) : site.Stores postings := by
  induction hfiled with
  | refl =>
    unfold Site.Stores
    rw [h]
    exact fun _ => rfl
  | tail act _ hdelay ih =>
    rw [Act.file_eq hdelay]
    exact Act.stores ih

end StreamBuffer
