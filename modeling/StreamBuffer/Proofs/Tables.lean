import Mathlib.Data.List.ReduceOption
import Mathlib.Data.Set.Card
import StreamBuffer.Platform.Table

/-!
# The things of a table

A table lists the things that were not removed in the order of their numbers. A thing is added
behind the others, and replaced or removed where it stands.
-/

namespace StreamBuffer.Table

variable {α : Type} {table : Table α} {a : α} {number : Nat}

def things (table : Table α) : List α := table.slots.reduceOption

theorem lt_next (h : table.get? number = some a) : number < table.next := by
  by_contra hge
  rw [get?_eq_none (Nat.le_of_not_lt hge)] at h
  cases h

theorem get?_eq_some : table.get? number = some a ↔ table.slots[number]? = some (some a) := by
  rw [get?, Option.join_eq_some_iff]

theorem mem_things_iff : a ∈ table.things ↔ ∃ number, table.get? number = some a := by
  rw [things, List.reduceOption_mem_iff, List.mem_iff_getElem?]
  simp only [get?_eq_some]

theorem mem_things (h : table.get? number = some a) : a ∈ table.things :=
  mem_things_iff.mpr ⟨number, h⟩

theorem things_push : (table.push a).things = table.things ++ [a] := by
  rw [things, push, List.reduceOption_append]
  rfl

/-- What stands before a thing and what stands behind it stays, whatever is done to the thing. -/
theorem things_split (h : table.get? number = some a) :
    ∃ before behind, table.things = before ++ a :: behind ∧
    (table.remove number).things = before ++ behind ∧
    ∀ b, (table.set number b).things = before ++ b :: behind := by
  have hlt : number < table.slots.length := lt_next h
  have hslots : ∀ slot, (table.slots.set number slot).reduceOption =
      (table.slots.take number).reduceOption ++
      ([slot].reduceOption ++ (table.slots.drop (number + 1)).reduceOption) := by
    intro slot
    rw [List.set_eq_take_cons_drop _ hlt, List.reduceOption_append, ← List.singleton_append,
      List.reduceOption_append]
  have hself : table.slots.set number (some a) = table.slots := by
    rw [← List.getElem_eq_iff hlt |>.mpr (get?_eq_some.mp h), List.set_getElem_self]
  refine ⟨_, _, ?_, hslots none, fun b => hslots (some b)⟩
  exact (congrArg List.reduceOption hself).symm.trans (hslots (some a))

/-- A thing that is not kept may as well be removed. -/
theorem filter_things_remove {keep : α → Bool}
    (h : ∀ a, table.get? number = some a → keep a = false) :
    (table.remove number).things.filter keep = table.things.filter keep := by
  obtain ⟨slots⟩ := table
  unfold remove things get? at *
  dsimp only at *
  induction slots generalizing number with
  | nil => rfl
  | cons slot slots ih =>
    cases number with
    | zero =>
      cases slot with
      | none => rfl
      | some a => simp [h a rfl]
    | succ number =>
      have hrest := ih fun a ha => h a ha
      cases slot <;> simp [List.filter_cons, hrest]

/-! ## One thing changed -/

theorem set_same (h : table.get? number = some a) : table.set number a = table := by
  have hlt : number < table.slots.length := lt_next h
  have hself := List.set_getElem_self hlt
  rw [List.getElem_eq_iff hlt |>.mpr (get?_eq_some.mp h)] at hself
  exact congrArg Table.mk hself

theorem remove_absent (h : table.get? number = none) : table.remove number = table := by
  rcases Nat.lt_or_ge number table.slots.length with hlt | hge
  · have hself := List.set_getElem_self hlt
    have hnone : table.slots[number] = none := by
      simpa [get?, List.getElem?_eq_getElem hlt] using h
    rw [hnone] at hself
    exact congrArg Table.mk hself
  · exact congrArg Table.mk (List.set_eq_of_length_le hge)

theorem get?_set_self (h : table.get? number = some a) (b : α) :
    (table.set number b).get? number = some b := by
  simp [lt_next h]

theorem of_get?_push {b : α} (h : (table.push a).get? number = some b) :
    number = table.next ∧ b = a ∨ table.get? number = some b := by
  rw [get?_push] at h
  split at h
  · exact .inl ⟨‹_›, (Option.some.inj h).symm⟩
  · exact .inr h

theorem of_get?_set {b : α} {other : Nat} (h : (table.set other a).get? number = some b) :
    number = other ∧ b = a ∨ number ≠ other ∧ table.get? number = some b := by
  rw [get?_set] at h
  split at h
  · rename_i heq
    exact .inl ⟨heq.1, (Option.some.inj h).symm⟩
  · rename_i hne
    exact .inr ⟨fun heq => hne ⟨heq, heq ▸ lt_next h⟩, h⟩

theorem of_get?_remove {b : α} {other : Nat} (h : (table.remove other).get? number = some b) :
    table.get? number = some b := by
  rw [get?_remove] at h
  split at h
  · cases h
  · exact h

theorem length_things_set (h : table.get? number = some a) (b : α) :
    (table.set number b).things.length = table.things.length := by
  obtain ⟨before, behind, hall, -, hset⟩ := things_split h
  simp [hall, hset]

theorem length_things_remove (h : table.get? number = some a) :
    (table.remove number).things.length + 1 = table.things.length := by
  obtain ⟨before, behind, hall, hremoved, -⟩ := things_split h
  simp [hall, hremoved, Nat.add_assoc]

/-! ## Things with their numbers -/

theorem mem_toList : (number, a) ∈ table.toList ↔ table.get? number = some a := by
  rw [get?_eq_some, toList, List.mem_filterMap]
  constructor
  · rintro ⟨⟨thing, slot⟩, hm, hs⟩
    rw [Option.map_eq_some_iff] at hs
    obtain ⟨b, rfl, hb⟩ := hs
    cases hb
    exact List.mem_zipIdx_iff_getElem?.mp hm
  · intro h
    exact ⟨(some a, number), List.mem_zipIdx_iff_getElem?.mpr h, rfl⟩

theorem pairwise_toList : table.toList.Pairwise fun p q => p.1 < q.1 := by
  have hindices : (table.slots.zipIdx.map Prod.snd).Pairwise (· < ·) := by
    rw [List.zipIdx_map_snd]
    exact List.pairwise_lt_range'
  rw [toList, List.pairwise_filterMap]
  refine (List.pairwise_map.mp hindices).imp fun hlt p hp q hq => ?_
  obtain ⟨_, -, rfl⟩ := Option.map_eq_some_iff.mp hp
  obtain ⟨_, -, rfl⟩ := Option.map_eq_some_iff.mp hq
  exact hlt

/-- The numbers tell in which order the things are listed. -/
theorem toList_eq {things : List (Nat × α)} (hlt : things.Pairwise fun p q => p.1 < q.1)
    (h : ∀ number a, (number, a) ∈ things ↔ table.get? number = some a) :
    table.toList = things := by
  refine List.Perm.eq_of_pairwise
    (fun p q _ _ hp hq => absurd hq (Nat.lt_asymm hp)) pairwise_toList hlt ?_
  have hne : ∀ {p q : Nat × α}, p.1 < q.1 → p ≠ q :=
    fun hlt heq => Nat.ne_of_lt hlt (congrArg Prod.fst heq)
  refine (List.perm_ext_iff_of_nodup (pairwise_toList.imp hne) (hlt.imp hne)).mpr fun p => ?_
  exact mem_toList.trans (h p.1 p.2).symm

theorem toList_push : (table.push a).toList = table.toList ++ [(table.next, a)] := by
  simp [toList, push, next, List.zipIdx_append, List.filterMap_append]

theorem toList_remove : (table.remove number).toList = table.toList.filter (·.1 != number) := by
  refine toList_eq (pairwise_toList.filter _) fun other b => ?_
  rw [List.mem_filter, mem_toList, get?_remove]
  by_cases h : other = number <;> simp [h]

theorem things_eq : table.things = table.toList.map (·.2) := by
  have hpick : ∀ p : Option α × Nat, ((p.1.map fun a => (p.2, a)).map (·.2)) = id p.1 := by
    intro p
    cases p.1 <;> rfl
  have hslots := congrArg (List.filterMap id) (List.zipIdx_map_fst 0 table.slots)
  rw [List.filterMap_map] at hslots
  rw [toList, List.map_filterMap]
  simp only [hpick]
  exact hslots.symm

/-- As many numbers are in use as there are things. -/
theorem ncard_used : {number | (table.get? number).isSome}.ncard = table.things.length := by
  have hnodup : (table.toList.map (·.1)).Nodup :=
    List.pairwise_map.mpr (pairwise_toList.imp Nat.ne_of_lt)
  have hset : {number | (table.get? number).isSome} =
      ((table.toList.map (·.1)).toFinset : Set Nat) := by
    ext number
    simp [Option.isSome_iff_exists, mem_toList]
  rw [hset, Set.ncard_coe_finset, List.toFinset_card_of_nodup hnodup, things_eq, List.length_map,
    List.length_map]

end StreamBuffer.Table
