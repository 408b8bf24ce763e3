import Mathlib.Data.List.Nodup
import Mathlib.Order.Nat
import StreamBuffer.Registry

/-!
# The entries of a registry

Types are told apart by ordinals, of which there are finitely many; registrations for devices and
lookups by name go by names, which many types may share.

From what was noted of all registries follows which types there are, and which factory stands for a
type in a registry. `Registry.Keeps` says that the entries of a registry are what follows from the
notes; whatever is noted next, it keeps to that.
-/

namespace StreamBuffer

namespace Registry

/-! ## What was noted -/

inductive Note where
  | created (type : BufferType)
  /-- Not refused. A registration for a device goes by the name. -/
  | registered (registry : Nat) (type : BufferType) (factory : Factory) (byName : Bool)
  | unregistered (registry : Nat) (type : BufferType)
deriving DecidableEq

def Note.creation : Note → Option BufferType
  | created type => some type
  | _ => none

def creations (notes : List Note) : List BufferType := notes.filterMap Note.creation

def Known (notes : List Note) (type : BufferType) : Prop :=
  type = .host ∨ type = .pinnedHost ∨ type ∈ creations notes

def Note.rule (registry : Nat) (type : BufferType) (standing : Option Factory) :
    Note → Option Factory
  | created _ => standing
  | registered place entered factory _ =>
    if place = registry ∧ entered = type then some factory else standing
  | unregistered place gone => if place = registry ∧ gone = type then none else standing

/-- The factory of the last registration of the type in a registry after which it was not
unregistered there. -/
def standing (notes : List Note) (registry : Nat) (type : BufferType) : Option Factory :=
  notes.foldl (Note.rule registry type) none

variable {registry : Registry} {notes : List Note} {type other : BufferType}
variable {factory : Factory} {place : Nat} {byName : Bool}

/-! ## Notes -/

theorem creations_append (notes more : List Note) :
    creations (notes ++ more) = creations notes ++ creations more :=
  List.filterMap_append

theorem creations_append_created :
    creations (notes ++ [.created type]) = creations notes ++ [type] :=
  creations_append notes _

theorem creations_append_registered :
    creations (notes ++ [.registered place type factory byName]) = creations notes := by
  simp [creations, Note.creation]

theorem creations_append_unregistered :
    creations (notes ++ [.unregistered place type]) = creations notes := by
  simp [creations, Note.creation]

theorem known_append {more : List Note} (h : Known notes type) : Known (notes ++ more) type := by
  rw [Known, creations_append]
  exact h.imp_right fun h => h.imp_right fun h => List.mem_append_left _ h

theorem known_append_created :
    Known (notes ++ [.created other]) type ↔ Known notes type ∨ type = other := by
  simp [Known, creations_append_created, or_assoc]

theorem known_append_registered : Known (notes ++ [.registered place other factory byName]) type ↔
    Known notes type := by
  rw [Known, creations_append_registered, Known]

theorem known_append_unregistered :
    Known (notes ++ [.unregistered place other]) type ↔ Known notes type := by
  rw [Known, creations_append_unregistered, Known]

theorem standing_append (note : Note) :
    standing (notes ++ [note]) place type = note.rule place type (standing notes place type) := by
  simp [standing]

/-! ## Entries -/

def keys (registry : Registry) : List BufferType := registry.entries.map (·.1)

theorem size_eq : registry.size = registry.keys.length := (List.length_map _).symm

theorem lookup_isSome :
    (registry.lookup type).isSome ↔ ∃ key ∈ registry.keys, key.ordinal = type.ordinal := by
  simp [lookup, keys, BufferType.same]

theorem contains_eq : registry.contains type = (registry.lookup type).isSome := by
  simp [contains, lookup, List.isSome_find?]

theorem named_eq (name : String) : registry.named name = registry.keys.filter (·.name == name) :=
  rfl

/-- A type without an entry gets one, behind those that are there. -/
theorem insert_of_none (h : registry.lookup type = none) :
    registry.insert type factory = ⟨registry.entries ++ [(type, factory)]⟩ := by
  simp [insert, contains_eq, h]

theorem keys_insert (h : registry.lookup type = none) :
    (registry.insert type factory).keys = registry.keys ++ [type] := by
  simp [insert_of_none h, keys]

theorem lookup_insert (h : registry.lookup type = none) :
    (registry.insert type factory).lookup other =
    if type.ordinal = other.ordinal then some factory else registry.lookup other := by
  rw [insert_of_none h]
  by_cases hsame : type.ordinal = other.ordinal
  · have hnone : registry.entries.find? (·.1.same other) = none := by
      simpa [lookup, BufferType.same, hsame] using h
    simp only [lookup, List.find?_append, hnone]
    simp [BufferType.same, hsame]
  · simp [lookup, List.find?_append, BufferType.same, hsame]

theorem keys_erase :
    (registry.erase type).keys = registry.keys.filter fun key => !key.same type := by
  simp only [erase, keys, List.filter_map]
  rfl

theorem lookup_erase : (registry.erase type).lookup other =
    if type.ordinal = other.ordinal then none else registry.lookup other := by
  simp only [erase, lookup, List.find?_filter]
  by_cases hsame : type.ordinal = other.ordinal
  · simp [BufferType.same, hsame]
  · have hkept : ∀ entry : BufferType × Factory,
        (!entry.1.same type && entry.1.same other) = entry.1.same other := by
      intro entry
      by_cases h : entry.1.ordinal = other.ordinal <;> simp [BufferType.same, h, Ne.symm hsame]
    simp [hkept, hsame]

/-! ## What a registry keeps to -/

/-- Types are created with one ordinal after the other, and nothing stands that is not known. -/
structure Distinct (notes : List Note) : Prop where
  fresh : (creations notes).map (·.ordinal) =
    List.range' BufferType.firstFresh (creations notes).length
  known : ∀ place type, (standing notes place type).isSome → Known notes type

structure Keeps (registry : Registry) (notes : List Note) (place : Nat) : Prop where
  nodup : (registry.keys.map (·.ordinal)).Nodup
  known : ∀ type ∈ registry.keys, Known notes type
  lookup_eq : ∀ type, Known notes type → registry.lookup type = standing notes place type
  named : (∀ type factory, .registered place type factory false ∉ notes) →
    (registry.keys.map (·.name)).Nodup

namespace Distinct

theorem empty : Distinct [] where
  fresh := rfl
  known place type h := by cases h

theorem created (h : Distinct notes)
    (hord : type.ordinal = BufferType.firstFresh + (creations notes).length) :
    Distinct (notes ++ [.created type]) where
  fresh := by simp [creations_append_created, h.fresh, hord, List.range'_concat]
  known place other hs := by
    rw [standing_append] at hs
    exact known_append (h.known place other hs)

theorem registered (h : Distinct notes) (hk : Known notes type) :
    Distinct (notes ++ [.registered place type factory byName]) where
  fresh := by simpa only [creations_append_registered] using h.fresh
  known elsewhere other hs := by
    rw [standing_append, Note.rule] at hs
    split at hs
    · rename_i hplace
      exact hplace.2 ▸ known_append hk
    · exact known_append (h.known elsewhere other hs)

theorem unregistered (h : Distinct notes) : Distinct (notes ++ [.unregistered place type]) where
  fresh := by simpa only [creations_append_unregistered] using h.fresh
  known elsewhere other hs := by
    rw [standing_append, Note.rule] at hs
    split at hs
    · cases hs
    · exact known_append (h.known elsewhere other hs)

theorem ordinal_of_mem (h : Distinct notes) (hm : type ∈ creations notes) :
    BufferType.firstFresh ≤ type.ordinal ∧
      type.ordinal < BufferType.firstFresh + (creations notes).length := by
  have hrange : type.ordinal ∈ (creations notes).map (·.ordinal) := List.mem_map_of_mem hm
  rw [h.fresh] at hrange
  exact List.mem_range'_1.mp hrange

theorem ordinal_lt (h : Distinct notes) (hk : Known notes type) :
    type.ordinal < BufferType.firstFresh + (creations notes).length := by
  rcases hk with rfl | rfl | hm
  · exact Nat.lt_add_right _ (by decide)
  · exact Nat.lt_add_right _ (by decide)
  · exact (h.ordinal_of_mem hm).2

/-- Types that are known are told apart by their ordinals. -/
theorem apart (h : Distinct notes) (ha : Known notes type) (hb : Known notes other)
    (hab : type.ordinal = other.ordinal) : type = other := by
  have hnodup : ((creations notes).map (·.ordinal)).Nodup := h.fresh ▸ List.nodup_range'
  have host_lt : BufferType.host.ordinal < BufferType.firstFresh := by decide
  have pinned_lt : BufferType.pinnedHost.ordinal < BufferType.firstFresh := by decide
  rcases ha with rfl | rfl | ha <;> rcases hb with rfl | rfl | hb
  · rfl
  · cases hab
  · exact absurd (hab ▸ (h.ordinal_of_mem hb).1) (by omega)
  · cases hab
  · rfl
  · exact absurd (hab ▸ (h.ordinal_of_mem hb).1) (by omega)
  · exact absurd (hab ▸ (h.ordinal_of_mem ha).1) (by omega)
  · exact absurd (hab ▸ (h.ordinal_of_mem ha).1) (by omega)
  · exact List.inj_on_of_nodup_map hnodup ha hb hab

/-- Nothing stands for a type that was not created. -/
theorem standing_eq_none (h : Distinct notes)
    (hord : BufferType.firstFresh + (creations notes).length ≤ type.ordinal) :
    standing notes place type = none := by
  by_contra hs
  exact absurd (h.ordinal_lt (h.known place type (Option.isSome_iff_ne_none.mpr hs))) hord.not_gt

end Distinct

namespace Keeps

theorem empty (h : ∀ type, standing notes place type = none) : Keeps {} notes place where
  nodup := .nil
  known := nofun
  lookup_eq type _ := (h type).symm
  named _ := .nil

theorem lookup_eq_none (h : registry.Keeps notes place) (hd : Distinct notes)
    (hord : BufferType.firstFresh + (creations notes).length ≤ type.ordinal) :
    registry.lookup type = none := by
  by_contra hs
  obtain ⟨key, hkey, hsame⟩ := lookup_isSome.mp (Option.isSome_iff_ne_none.mpr hs)
  exact absurd (hsame ▸ hd.ordinal_lt (h.known key hkey)) hord.not_gt

theorem created (h : registry.Keeps notes place) (hd : Distinct notes)
    (hord : type.ordinal = BufferType.firstFresh + (creations notes).length) :
    registry.Keeps (notes ++ [.created type]) place where
  nodup := h.nodup
  known key hk := known_append (h.known key hk)
  lookup_eq other hk := by
    rw [standing_append]
    rcases known_append_created.mp hk with hk | rfl
    · exact h.lookup_eq other hk
    · exact (h.lookup_eq_none hd hord.ge).trans (hd.standing_eq_none hord.ge).symm
  named hn := h.named fun other factory hm => hn other factory (List.mem_append_left _ hm)

/-- What is done in another registry does not matter. -/
theorem elsewhere {note : Note} (h : registry.Keeps notes place)
    (hrule : ∀ type standing, note.rule place type standing = standing)
    (hknown : ∀ type, Known (notes ++ [note]) type → Known notes type) :
    registry.Keeps (notes ++ [note]) place where
  nodup := h.nodup
  known key hk := known_append (h.known key hk)
  lookup_eq other hk := by
    rw [standing_append, hrule]
    exact h.lookup_eq other (hknown other hk)
  named hn := h.named fun other factory hm => hn other factory (List.mem_append_left _ hm)

theorem registered (h : registry.Keeps notes place) (hd : Distinct notes) (hk : Known notes type)
    (hnone : registry.lookup type = none)
    (hname : byName = true → type.name ∉ registry.keys.map (·.name)) :
    (registry.insert type factory).Keeps
      (notes ++ [.registered place type factory byName]) place where
  nodup := by
    rw [keys_insert hnone, List.map_append, List.nodup_append]
    refine ⟨h.nodup, List.nodup_singleton _, ?_⟩
    intro ordinal hordinal _ hsame heq
    obtain ⟨key, hkey, rfl⟩ := List.mem_map.mp hordinal
    have hfound := lookup_isSome.mpr ⟨key, hkey, heq.trans (List.mem_singleton.mp hsame)⟩
    rw [hnone] at hfound
    cases hfound
  known key hkey := by
    rw [keys_insert hnone] at hkey
    rcases List.mem_append.mp hkey with hkey | hkey
    · exact known_append (h.known key hkey)
    · exact known_append (List.mem_singleton.mp hkey ▸ hk)
  lookup_eq other hother := by
    have hother := known_append_registered.mp hother
    rw [lookup_insert hnone, standing_append, Note.rule]
    by_cases hsame : type = other
    · simp [hsame]
    · rw [if_neg fun ho => hsame (hd.apart hk hother ho), if_neg fun hp => hsame hp.2]
      exact h.lookup_eq other hother
  -- names tell types apart only while nobody registered a type by itself
  named hn := by
    cases byName with
    | false => exact absurd (List.mem_append_right _ (List.mem_singleton_self _)) (hn type factory)
    | true =>
      rw [keys_insert hnone, List.map_append, List.nodup_append]
      refine ⟨h.named fun other factory hm => hn other factory (List.mem_append_left _ hm),
        List.nodup_singleton _, ?_⟩
      intro name hm _ hsame heq
      obtain rfl : name = type.name := heq.trans (List.mem_singleton.mp hsame)
      exact hname rfl hm

theorem unregistered (h : registry.Keeps notes place) (hd : Distinct notes)
    (hk : Known notes type) :
    (registry.erase type).Keeps (notes ++ [.unregistered place type]) place where
  nodup := by
    rw [keys_erase]
    exact h.nodup.sublist (List.filter_sublist.map _)
  known key hkey := by
    rw [keys_erase] at hkey
    exact known_append (h.known key (List.mem_of_mem_filter hkey))
  lookup_eq other hother := by
    have hother := known_append_unregistered.mp hother
    rw [lookup_erase, standing_append, Note.rule]
    by_cases hsame : type = other
    · simp [hsame]
    · rw [if_neg fun ho => hsame (hd.apart hk hother ho), if_neg fun hp => hsame hp.2]
      exact h.lookup_eq other hother
  named hn := by
    rw [keys_erase]
    exact (h.named fun other factory hm => hn other factory (List.mem_append_left _ hm)).sublist
      (List.filter_sublist.map _)

/-- Nothing is erased where there is nothing. -/
theorem unregistered_absent (h : registry.Keeps notes place) (hd : Distinct notes)
    (hk : Known notes type) (hnone : registry.lookup type = none) :
    registry.Keeps (notes ++ [.unregistered place type]) place := by
  have herase : registry.erase type = registry := by
    have hkept : ∀ entry ∈ registry.entries, (!entry.1.same type) = true := by
      simpa [lookup] using hnone
    simp [erase, List.filter_eq_self.mpr hkept]
  exact herase ▸ h.unregistered hd hk

end Keeps

end Registry

end StreamBuffer
