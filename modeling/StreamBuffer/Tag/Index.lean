import StreamBuffer.Tag.Value
import StreamBuffer.Word

/-!
# Tags

A tag marks one item of a stream, by its absolute offset, with a key and a payload. An index keeps
the tags of a stream in groups, one for each offset that has a tag, and counts them along. The
groups are ordered by offset, and the tags of a group as they were inserted. A consumer can hide a
tag from itself; the tag stays for all others until it is pruned.
-/

namespace StreamBuffer

structure Tag where
  offset : Nat
  key : String
  value : Tag.Value := .null
  /-- The stage that made the tag. -/
  source : Option String := none
  /-- The consumers that hid the tag from themselves. -/
  hiddenFrom : List Nat := []

namespace Tag

/-- Whether two tags are the same tag. It does not matter who hid them. -/
def same (a b : Tag) : Bool :=
  a.offset == b.offset && a.key == b.key && a.value.same b.value && a.source == b.source

def isHiddenFrom (tag : Tag) (consumer : Nat) : Bool := tag.hiddenFrom.contains consumer

/-- Hides the tag from a consumer; once is enough. -/
def hideFrom (tag : Tag) (consumer : Nat) : Tag :=
  if tag.isHiddenFrom consumer then tag
  else { tag with hiddenFrom := tag.hiddenFrom ++ [consumer] }

@[simp] theorem offset_hideFrom (tag : Tag) (consumer : Nat) :
    (tag.hideFrom consumer).offset = tag.offset := by
  unfold hideFrom
  split <;> rfl

/-- The tags at one offset, in the order in which they came. -/
structure Group where
  offset : Nat
  tags : List Tag
  together : ∀ tag ∈ tags, tag.offset = offset

namespace Group

def single (tag : Tag) : Group := ⟨tag.offset, [tag], by simp⟩

def push (group : Group) (tag : Tag) (h : tag.offset = group.offset) : Group where
  offset := group.offset
  tags := group.tags ++ [tag]
  together := by
    intro other hm
    rcases List.mem_append.mp hm with hm | hm
    · exact group.together other hm
    · rwa [List.mem_singleton.mp hm]

def contains (group : Group) (tag : Tag) : Bool := group.tags.any (·.same tag)

/-- Hides from a consumer all tags of the group that are the same as the given one. -/
def hide (group : Group) (tag : Tag) (consumer : Nat) : Group where
  offset := group.offset
  tags := group.tags.map fun stored => if stored.same tag then stored.hideFrom consumer else stored
  together := by
    intro other hm
    obtain ⟨stored, hstored, rfl⟩ := List.mem_map.mp hm
    split
    · rw [offset_hideFrom]
      exact group.together stored hstored
    · exact group.together stored hstored

/-- Adds a tag to the group at its offset. If there is none, the tag gets a group of its own. -/
def insert (tag : Tag) : List Group → List Group
  | [] => [single tag]
  | group :: groups =>
    if h : tag.offset = group.offset then group.push tag h :: groups
    else if tag.offset < group.offset then single tag :: group :: groups
    else group :: insert tag groups

/-- Hides a tag in the group at its offset. -/
def hideIn (groups : List Group) (tag : Tag) (consumer : Nat) : List Group :=
  groups.map fun group => if group.offset = tag.offset then group.hide tag consumer else group

/-- The number of tags in all groups. -/
def count : List Group → Nat
  | [] => 0
  | group :: groups => group.tags.length + count groups

variable {tag : Tag} {groups : List Group}

theorem count_insert (tag : Tag) (groups : List Group) :
    count (insert tag groups) = count groups + 1 := by
  induction groups with
  | nil => rfl
  | cons group groups ih =>
    unfold insert
    split
    · simp only [count, push, List.length_append, List.length_singleton]
      omega
    · split
      · simp only [count, single, List.length_singleton]
        omega
      · rw [count, count, ih, Nat.add_assoc]

theorem mem_insert {group : Group} (h : group ∈ insert tag groups) :
    group.offset = tag.offset ∨ group ∈ groups := by
  induction groups with
  | nil =>
    obtain rfl := List.mem_singleton.mp h
    exact .inl rfl
  | cons first groups ih =>
    unfold insert at h
    split at h
    · rename_i hoffset
      rcases List.mem_cons.mp h with rfl | h
      · exact .inl hoffset.symm
      · exact .inr (List.mem_cons_of_mem _ h)
    · split at h
      · rcases List.mem_cons.mp h with rfl | h
        · exact .inl rfl
        · exact .inr h
      · rcases List.mem_cons.mp h with rfl | h
        · exact .inr (List.mem_cons_self ..)
        · exact (ih h).imp_right (List.mem_cons_of_mem _)

theorem pairwise_insert (h : groups.Pairwise (·.offset < ·.offset)) :
    (insert tag groups).Pairwise (·.offset < ·.offset) := by
  induction groups with
  | nil => exact List.pairwise_singleton ..
  | cons group groups ih =>
    obtain ⟨hfirst, hrest⟩ := List.pairwise_cons.mp h
    unfold insert
    split
    · exact List.pairwise_cons.mpr ⟨hfirst, hrest⟩
    · split
      · rename_i hlt
        refine List.pairwise_cons.mpr ⟨fun other hm => ?_, h⟩
        rcases List.mem_cons.mp hm with rfl | hm
        · exact hlt
        · exact Nat.lt_trans hlt (hfirst other hm)
      · refine List.pairwise_cons.mpr ⟨fun other hm => ?_, ih hrest⟩
        rcases mem_insert hm with hoffset | hm
        · omega
        · exact hfirst other hm

theorem count_hideIn (groups : List Group) (tag : Tag) (consumer : Nat) :
    count (hideIn groups tag consumer) = count groups := by
  induction groups with
  | nil => rfl
  | cons group groups ih =>
    have hfirst : (if group.offset = tag.offset then group.hide tag consumer
        else group).tags.length = group.tags.length := by
      split
      · exact List.length_map ..
      · rfl
    unfold hideIn at ih ⊢
    rw [List.map_cons, count, count, hfirst, ih]

theorem pairwise_hideIn (h : groups.Pairwise (·.offset < ·.offset)) (consumer : Nat) :
    (hideIn groups tag consumer).Pairwise (·.offset < ·.offset) := by
  refine List.pairwise_map.mpr (h.imp fun {a b} hlt => ?_)
  split <;> split <;> exact hlt

theorem count_split (before : Group → Bool) (groups : List Group) :
    count (groups.takeWhile before) + count (groups.dropWhile before) = count groups := by
  induction groups with
  | nil => rfl
  | cons group groups ih =>
    cases h : before group
    · rw [List.takeWhile_cons_of_neg (by simp [h]), List.dropWhile_cons_of_neg (by simp [h])]
      exact Nat.zero_add _
    · rw [List.takeWhile_cons_of_pos h, List.dropWhile_cons_of_pos h, count, count, Nat.add_assoc,
        ih]

end Group

/-- The groups in the order of their offsets. How many tags they hold is counted along. -/
structure Index where
  groups : List Group := []
  size : Nat := 0
  sorted : groups.Pairwise (·.offset < ·.offset) := by exact List.Pairwise.nil
  size_eq : size = Group.count groups := by rfl

namespace Index

instance : Inhabited Index := ⟨{}⟩

def isEmpty (index : Index) : Bool := index.size == 0

/-- Adds a tag after those with the same offset. -/
def insert (index : Index) (tag : Tag) : Index where
  groups := Group.insert tag index.groups
  size := index.size + 1
  sorted := Group.pairwise_insert index.sorted
  size_eq := by rw [Group.count_insert, ← index.size_eq]

/-- Hides from a consumer all stored tags that are the same as the given one, and tells whether
there was one. Only the group at its offset is looked at. -/
def hide (index : Index) (tag : Tag) (consumer : Nat) : Bool × Index :=
  match index.groups.find? (·.offset == tag.offset) with
  | none => (false, index)
  | some group =>
    (group.contains tag,
      { groups := Group.hideIn index.groups tag consumer
        size := index.size
        sorted := Group.pairwise_hideIn index.sorted consumer
        size_eq := index.size_eq.trans (Group.count_hideIn ..).symm })

/-- Parts with the groups that lie before an offset, and gives the number of their tags. -/
def dropBefore (index : Index) (offset : Nat) : Checked (Nat × Index) :=
  let removed := Group.count (index.groups.takeWhile (·.offset < offset))
  match h : Word.sub index.size removed with
  | .error fault => .error fault
  | .ok size => .ok (removed,
    { groups := index.groups.dropWhile (·.offset < offset)
      size
      sorted := index.sorted.sublist (List.dropWhile_sublist _)
      size_eq := by
        have hsplit := Group.count_split (·.offset < offset) index.groups
        have hsize := index.size_eq
        unfold Word.sub at h
        split at h
        · cases h
          omega
        · cases h })

/-- Drops the tags that lie more than `delay + capacity` items before `time`, and gives their
number. -/
def prune (index : Index) (time delay capacity : Nat) : Checked (Nat × Index) := do
  let reach ← Word.add delay capacity
  if time ≤ reach then return (0, index)
  index.dropBefore (time - reach)

/-- The tags at offsets from `start` up to, and not including, `stop`. -/
def range (index : Index) (start stop : Nat) : List Tag :=
  let stop := if start < stop then stop else start
  (index.groups.filter fun group => start ≤ group.offset && group.offset < stop).flatMap (·.tags)

end Index

end Tag

end StreamBuffer
