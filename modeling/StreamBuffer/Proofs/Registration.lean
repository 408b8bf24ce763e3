import Mathlib.Data.Set.Card
import StreamBuffer.Platform.Types
import StreamBuffer.Proofs.Entries
import StreamBuffer.Proofs.Platforms
import StreamBuffer.Proofs.Tables

/-!
# Registries as maps

`registry_is_first_come_map`: whatever is created, registered and unregistered, in any number of
registries, each of them is the map in which a type stands under the factory of its last
registration that was not refused, until it is unregistered. `Registry.Serves` says what the
operations answer in these terms.
-/

namespace StreamBuffer

namespace Registry

/-! ## Calls -/

inductive Call where
  /-- A registry without types. -/
  | found
  /-- A registry with the types of the host. -/
  | foundForHost
  /-- The registry that all share. -/
  | share
  | create (name : String)
  | register (registry : Nat) (type : BufferType) (factory : Factory)
  | registerDevice (registry : Nat) (name : String) (device : Nat)
  | unregister (registry : Nat) (type : BufferType)
  | lookup (registry : Nat) (type : BufferType)

namespace Call

def Proper (notes : List Note) : Call → Prop
  | register _ type _ | unregister _ type | lookup _ type => Known notes type
  | _ => True

def after (platform : Platform) : Call → Platform
  | found => (Platform.addRegistry {}).after platform
  | foundForHost => Platform.addHostRegistry.after platform
  | share => Platform.shareRegistry.after platform
  | create name => Action.after (do Platform.addType (← Platform.freshType name)) platform
  | register registry type factory => (Platform.register registry type factory).after platform
  | registerDevice registry name device =>
    (Platform.registerDevice registry name device).after platform
  | unregister registry type => (Platform.unregister registry type).after platform
  | lookup registry type => (Platform.lookup registry type).after platform

def notes (platform : Platform) : Call → List Note
  | found | lookup .. => []
  | foundForHost =>
    match Platform.addHostRegistry platform with
    | .ok registry _ =>
      [.registered registry .host ⟨platform.nextFactory, .allocate .heap .single⟩ false,
        .registered registry .pinnedHost
          ⟨platform.nextFactory + 1, .allocate .pinned .single⟩ false]
    | .error .. => []
  | share =>
    match platform.sharedRegistry with
    | some _ => []
    | none =>
      [.registered platform.registries.next .host ⟨0, .allocate .heap .single⟩ false,
        .registered platform.registries.next .pinnedHost ⟨1, .allocate .pinned .single⟩ false]
  | create name =>
    match Platform.freshType name platform with
    | .ok type _ => [.created type]
    | .error .. => []
  | register registry type factory =>
    match Platform.register registry type factory platform with
    | .ok (some true) _ => [.registered registry type factory false]
    | _ => []
  | registerDevice registry name device =>
    match Platform.registerDevice registry name device platform with
    | .ok (some (some slot)) after =>
      match after.types.get? slot with
      | some type => [.created type,
          .registered registry type ⟨platform.nextFactory, .allocate (.device device) .single⟩ true]
      | none => []
    | _ => []
  | unregister registry type => [.unregistered registry type]

end Call

inductive Course : List Note → Platform → Prop where
  | start (machine : Machine) : Course [] { machine }
  | next {notes : List Note} {platform : Platform} (call : Call) (course : Course notes platform)
      (h : call.Proper notes) : Course (notes ++ call.notes platform) (call.after platform)

end Registry

/-! ## What the operations do -/

namespace Platform

variable {platform : Platform} {registry : Registry} {type : BufferType} {factory : Factory}
variable {place : Nat}
variable {name : String}

theorem register_of_present (factory : Factory)
    (hg : platform.registries.get? place = some registry) (h : registry.contains type = true) :
    register place type factory platform =
      .ok (some false) (platform.reported (.typeRefused type.name)) := by
  unfold register
  rw [onSlot_eq hg, h]
  rfl

theorem register_of_absent (factory : Factory) (hg : platform.registries.get? place = some registry)
    (h : registry.contains type = false) :
    register place type factory platform = .ok (some true) (reported
      { platform with registries := platform.registries.set place (registry.insert type factory) }
      (.typeRegistered type.name)) := by
  unfold register
  rw [onSlot_eq hg, h]
  rfl

theorem registerDevice_of_taken (device : Nat) (hg : platform.registries.get? place = some registry)
    (h : (registry.named name).isEmpty = false) :
    registerDevice place name device platform =
      .ok (some none) (platform.reported (.nameTaken name)) := by
  unfold registerDevice
  rw [onSlot_eq hg, h]
  rfl

theorem registerDevice_of_free (device : Nat) (hg : platform.registries.get? place = some registry)
    (h : (registry.named name).isEmpty = true) :
    registerDevice place name device platform = .ok (some (some platform.types.next)) (reported
      { platform with
        types := platform.types.push ⟨name, platform.nextOrdinal⟩
        registries := platform.registries.set place (registry.insert ⟨name, platform.nextOrdinal⟩
          ⟨platform.nextFactory, .allocate (.device device) .single⟩)
        nextOrdinal := (platform.nextOrdinal + 1) % BufferType.ordinals
        nextFactory := platform.nextFactory + 1 }
      (.deviceTypeRegistered name)) := by
  unfold registerDevice
  rw [onSlot_eq hg, h]
  rfl

theorem unregister_of_present (hg : platform.registries.get? place = some registry)
    (h : registry.contains type = true) :
    unregister place type platform = .ok (some true) (reported
      { platform with registries := platform.registries.set place (registry.erase type) }
      (.typeUnregistered type.name)) := by
  unfold unregister
  rw [onSlot_eq hg, h]
  rfl

theorem unregister_of_absent (hg : platform.registries.get? place = some registry)
    (h : registry.contains type = false) :
    unregister place type platform = .ok (some false) platform := by
  unfold unregister
  rw [onSlot_eq hg, h]
  rfl

theorem lookup_of_present (hg : platform.registries.get? place = some registry)
    (h : registry.lookup type = some factory) :
    lookup place type platform = .ok (some (some platform.factories.next))
      { platform with factories := platform.factories.push factory } := by
  unfold lookup
  rw [onSlot_eq hg, h]
  rfl

theorem lookup_of_absent (hg : platform.registries.get? place = some registry)
    (h : registry.lookup type = none) : lookup place type platform = .ok (some none) platform := by
  unfold lookup
  rw [onSlot_eq hg, h]
  rfl

/-- A new registry with the types of the host, registered one after the other. -/
theorem addHostRegistry_eq (platform : Platform) :
    let slot := platform.registries.next
    let heap : Factory := ⟨platform.nextFactory, .allocate .heap .single⟩
    let pinned : Factory := ⟨platform.nextFactory + 1, .allocate .pinned .single⟩
    let hosted := Registry.insert {} .host heap
    ∃ after, addHostRegistry platform = .ok slot after ∧ after.nextOrdinal = platform.nextOrdinal ∧
      after.registries = platform.registries.push (hosted.insert .pinnedHost pinned) := by
  intro slot heap pinned hosted
  let empty : Platform := { platform with registries := platform.registries.push {} }
  let first : Platform := { empty with nextFactory := platform.nextFactory + 1 }
  let second : Platform := reported
    { first with registries := first.registries.set slot hosted } (.typeRegistered "host")
  let third : Platform := { second with nextFactory := platform.nextFactory + 2 }
  let last : Platform := reported
    { third with registries := third.registries.set slot (hosted.insert .pinnedHost pinned) }
    (.typeRegistered "pinned_host")
  have hadd : addRegistry {} platform = .ok slot empty := rfl
  have hheap : freshFactory (.allocate .heap .single) empty = .ok heap first := rfl
  have hpinned : freshFactory (.allocate .pinned .single) second = .ok pinned third := rfl
  have hfirst : first.registries.get? slot = some {} := by simp [first, empty, slot]
  have hthird : third.registries.get? slot = some hosted := by
    simp [third, second, reported, first, empty, slot]
  have hhost : register slot .host heap first = .ok (some true) second :=
    register_of_absent heap hfirst rfl
  have hlast : register slot .pinnedHost pinned third = .ok (some true) last :=
    register_of_absent pinned hthird rfl
  have hregistries : last.registries =
      platform.registries.push (hosted.insert .pinnedHost pinned) := by
    simp [last, third, second, reported, first, empty, slot]
  refine ⟨last, (Action.bind_of_ok _ hadd).trans ((Action.bind_of_ok _ hheap).trans ?_), rfl,
    hregistries⟩
  refine (Action.bind_of_ok _ (Action.discard_of_ok hhost)).trans
    ((Action.bind_of_ok _ hpinned).trans ?_)
  exact Action.bind_of_ok _ (Action.discard_of_ok hlast)

end Platform

/-! ## What a platform keeps to -/

namespace Registry

variable {registry : Registry} {notes : List Note} {platform after : Platform} {type : BufferType}
variable {factory : Factory} {place : Nat} {byName : Bool} {name : String}

structure Kept (notes : List Note) (platform : Platform) : Prop where
  distinct : Distinct notes
  nextOrdinal : platform.nextOrdinal =
    (BufferType.firstFresh + (creations notes).length) % BufferType.ordinals
  keeps : ∀ place registry, platform.registries.get? place = some registry →
    registry.Keeps notes place
  beyond : ∀ place type, platform.registries.next ≤ place → standing notes place type = none

namespace Kept

theorem start (machine : Machine) : Kept [] { machine } where
  distinct := .empty
  nextOrdinal := rfl
  keeps place registry hg := by simp [Table.get?] at hg
  beyond place type _ := rfl

theorem of_eq (h : Kept notes platform) (hord : after.nextOrdinal = platform.nextOrdinal)
    (hreg : after.registries = platform.registries) : Kept notes after :=
  ⟨h.distinct, hord ▸ h.nextOrdinal, hreg ▸ h.keeps, hreg ▸ h.beyond⟩

theorem added (h : Kept notes platform) (hord : after.nextOrdinal = platform.nextOrdinal)
    (hreg : after.registries = platform.registries.push {}) : Kept notes after where
  distinct := h.distinct
  nextOrdinal := hord ▸ h.nextOrdinal
  keeps place registry hg := by
    rw [hreg, Table.get?_push] at hg
    split at hg
    · rename_i hplace
      cases hg
      exact Keeps.empty fun type => h.beyond place type hplace.ge
    · exact h.keeps place registry hg
  beyond place type hle := by
    rw [hreg, Table.next_push] at hle
    exact h.beyond place type (Nat.le_of_succ_le hle)

theorem created (h : Kept notes platform)
    (hroom : BufferType.firstFresh + (creations notes).length < BufferType.ordinals)
    (hord : after.nextOrdinal = (platform.nextOrdinal + 1) % BufferType.ordinals)
    (hreg : after.registries = platform.registries) :
    Kept (notes ++ [.created ⟨name, platform.nextOrdinal⟩]) after := by
  have hnext : platform.nextOrdinal = BufferType.firstFresh + (creations notes).length :=
    h.nextOrdinal.trans (Nat.mod_eq_of_lt hroom)
  constructor
  case distinct => exact h.distinct.created hnext
  case nextOrdinal => simp [hord, hnext, creations_append_created, Nat.add_assoc]
  case keeps =>
    intro place registry hg
    exact (h.keeps place registry (hreg ▸ hg)).created h.distinct hnext
  case beyond =>
    intro place other hle
    rw [standing_append]
    exact h.beyond place other (hreg ▸ hle)

theorem registered (h : Kept notes platform) (hg : platform.registries.get? place = some registry)
    (hk : Known notes type) (hnone : registry.lookup type = none)
    (hname : byName = true → type.name ∉ registry.keys.map (·.name))
    (hord : after.nextOrdinal = platform.nextOrdinal)
    (hreg : after.registries = platform.registries.set place (registry.insert type factory)) :
    Kept (notes ++ [.registered place type factory byName]) after where
  distinct := h.distinct.registered hk
  nextOrdinal := by rw [hord, creations_append_registered, h.nextOrdinal]
  keeps other found hf := by
    rw [hreg, Table.get?_set] at hf
    split at hf
    · rename_i hplace
      cases hf
      rw [hplace.1]
      exact (h.keeps place registry hg).registered h.distinct hk hnone hname
    · rename_i hplace
      have hne : place ≠ other := fun heq => hplace ⟨heq.symm, Table.lt_next hg⟩
      exact (h.keeps other found hf).elsewhere (fun _ _ => if_neg fun hp => hne hp.1)
        fun _ => known_append_registered.mp
  beyond other type hle := by
    rw [hreg, Table.next_set] at hle
    rw [standing_append, Note.rule, if_neg, h.beyond other type hle]
    intro heq
    exact absurd (Table.lt_next hg) (heq.1 ▸ hle).not_gt

theorem unregistered (h : Kept notes platform) (hg : platform.registries.get? place = some registry)
    (hk : Known notes type) (hord : after.nextOrdinal = platform.nextOrdinal)
    (hreg : after.registries = platform.registries.set place (registry.erase type)) :
    Kept (notes ++ [.unregistered place type]) after where
  distinct := h.distinct.unregistered
  nextOrdinal := by rw [hord, creations_append_unregistered, h.nextOrdinal]
  keeps other found hf := by
    rw [hreg, Table.get?_set] at hf
    split at hf
    · rename_i hplace
      cases hf
      rw [hplace.1]
      exact (h.keeps place registry hg).unregistered h.distinct hk
    · rename_i hplace
      have hne : place ≠ other := fun heq => hplace ⟨heq.symm, Table.lt_next hg⟩
      exact (h.keeps other found hf).elsewhere (fun _ _ => if_neg fun hp => hne hp.1)
        fun _ => known_append_unregistered.mp
  beyond other type hle := by
    rw [hreg, Table.next_set] at hle
    rw [standing_append, Note.rule, h.beyond other type hle, ite_self]

/-- It makes no difference to unregister what was not registered. -/
theorem unregistered_absent (h : Kept notes platform) (hk : Known notes type)
    (habs : ∀ registry, platform.registries.get? place = some registry →
      registry.lookup type = none) :
    Kept (notes ++ [.unregistered place type]) platform where
  distinct := h.distinct.unregistered
  nextOrdinal := by rw [creations_append_unregistered, h.nextOrdinal]
  keeps other found hf := by
    by_cases hplace : place = other
    · subst hplace
      exact (h.keeps place found hf).unregistered_absent h.distinct hk (habs found hf)
    · exact (h.keeps other found hf).elsewhere (fun _ _ => if_neg fun hp => hplace hp.1)
        fun _ => known_append_unregistered.mp
  beyond other type hle := by
    rw [standing_append, Note.rule, h.beyond other type hle, ite_self]

/-! ### Calls one by one -/

theorem after_found (h : Kept notes platform) : Kept notes (Call.found.after platform) :=
  h.added rfl rfl

theorem after_lookup (h : Kept notes platform) (place : Nat) (type : BufferType) :
    Kept notes ((Call.lookup place type).after platform) := by
  rw [Call.after]
  cases hg : platform.registries.get? place with
  | none =>
    have habsent : Platform.lookup place type platform = _ := Platform.onSlot_absent hg
    rwa [Action.after_of_ok habsent]
  | some registry =>
    cases hfound : registry.lookup type with
    | none => rwa [Action.after_of_ok (Platform.lookup_of_absent hg hfound)]
    | some factory =>
      rw [Action.after_of_ok (Platform.lookup_of_present hg hfound)]
      exact h.of_eq rfl rfl

theorem after_create (h : Kept notes platform) (name : String)
    (hroom : BufferType.firstFresh +
      (creations (notes ++ (Call.create name).notes platform)).length ≤ BufferType.ordinals) :
    Kept (notes ++ (Call.create name).notes platform) ((Call.create name).after platform) := by
  have hcount : (creations (notes ++ (Call.create name).notes platform)).length =
      (creations notes).length + 1 :=
    (congrArg List.length creations_append_created).trans List.length_append
  exact h.created (by omega) rfl rfl

theorem after_register (h : Kept notes platform) (place : Nat) {type : BufferType}
    (factory : Factory) (hk : Known notes type) :
    Kept (notes ++ (Call.register place type factory).notes platform)
      ((Call.register place type factory).after platform) := by
  rw [Call.after, Call.notes]
  cases hg : platform.registries.get? place with
  | none =>
    have habsent : Platform.register place type factory platform = _ := Platform.onSlot_absent hg
    simpa only [habsent, List.append_nil, Action.after_of_ok habsent] using h
  | some registry =>
    cases hc : registry.contains type with
    | true =>
      have hrefused := Platform.register_of_present factory hg hc
      simp only [hrefused, List.append_nil, Action.after_of_ok hrefused]
      exact h.of_eq rfl rfl
    | false =>
      have hdone := Platform.register_of_absent factory hg hc
      simp only [hdone, Action.after_of_ok hdone]
      rw [contains_eq, Option.isSome_eq_false_iff, Option.isNone_iff_eq_none] at hc
      exact h.registered hg hk hc nofun rfl rfl

theorem after_unregister (h : Kept notes platform) (place : Nat) {type : BufferType}
    (hk : Known notes type) :
    Kept (notes ++ (Call.unregister place type).notes platform)
      ((Call.unregister place type).after platform) := by
  rw [Call.after, Call.notes]
  cases hg : platform.registries.get? place with
  | none =>
    have habsent : Platform.unregister place type platform = _ := Platform.onSlot_absent hg
    rw [Action.after_of_ok habsent]
    exact h.unregistered_absent hk fun registry hr => nomatch hg.symm.trans hr
  | some registry =>
    cases hc : registry.contains type with
    | true =>
      rw [Action.after_of_ok (Platform.unregister_of_present hg hc)]
      exact h.unregistered hg hk rfl rfl
    | false =>
      rw [Action.after_of_ok (Platform.unregister_of_absent hg hc)]
      rw [contains_eq, Option.isSome_eq_false_iff, Option.isNone_iff_eq_none] at hc
      refine h.unregistered_absent hk fun other hr => ?_
      cases hg.symm.trans hr
      exact hc

theorem after_registerDevice (h : Kept notes platform) (place : Nat) (name : String) (device : Nat)
    (hroom : BufferType.firstFresh +
      (creations (notes ++ (Call.registerDevice place name device).notes platform)).length ≤
        BufferType.ordinals) :
    Kept (notes ++ (Call.registerDevice place name device).notes platform)
      ((Call.registerDevice place name device).after platform) := by
  rw [Call.notes] at hroom ⊢
  rw [Call.after]
  cases hg : platform.registries.get? place with
  | none =>
    have habsent : Platform.registerDevice place name device platform = _ :=
      Platform.onSlot_absent hg
    simpa only [habsent, List.append_nil, Action.after_of_ok habsent] using h
  | some registry =>
    cases hn : (registry.named name).isEmpty with
    | false =>
      have htaken := Platform.registerDevice_of_taken device hg hn
      simp only [htaken, List.append_nil, Action.after_of_ok htaken]
      exact h.of_eq rfl rfl
    | true =>
      have hdone := Platform.registerDevice_of_free device hg hn
      let type : BufferType := ⟨name, platform.nextOrdinal⟩
      let factory : Factory := ⟨platform.nextFactory, .allocate (.device device) .single⟩
      let fresh : Platform :=
        { platform with nextOrdinal := (platform.nextOrdinal + 1) % BufferType.ordinals }
      simp only [hdone, Action.after_of_ok hdone, Platform.reported, Table.get?_push,
        if_true] at hroom ⊢
      have hlt : BufferType.firstFresh + (creations notes).length < BufferType.ordinals := by
        have hone : creations [.created type, .registered place type factory true] = [type] := rfl
        rw [creations_append, hone, List.length_append, List.length_singleton] at hroom
        omega
      have hnone : registry.lookup type = none :=
        (h.keeps place registry hg).lookup_eq_none h.distinct
          (h.nextOrdinal.trans (Nat.mod_eq_of_lt hlt)).ge
      have hunnamed : name ∉ registry.keys.map (·.name) := by
        simpa [named_eq] using hn
      -- The type is created first, and then registered like any other.
      have hfresh : Kept (notes ++ [.created type]) fresh := h.created hlt rfl rfl
      have hkept : Kept (notes ++ [.created type] ++ [.registered place type factory true])
          { fresh with
            registries := platform.registries.set place (registry.insert type factory) } :=
        hfresh.registered hg (known_append_created.mpr (.inr rfl)) hnone (fun _ => hunnamed) rfl rfl
      rw [List.append_assoc] at hkept
      exact hkept.of_eq rfl rfl

/-- A new registry with the types of the host is an empty one in which they were registered. -/
theorem hosted (h : Kept notes platform) (heap pinned : Factory)
    (hord : after.nextOrdinal = platform.nextOrdinal) (hreg : after.registries =
      platform.registries.push ((Registry.insert {} .host heap).insert .pinnedHost pinned)) :
    Kept (notes ++ [.registered platform.registries.next .host heap false,
      .registered platform.registries.next .pinnedHost pinned false]) after := by
  let place := platform.registries.next
  let hosted : Registry := Registry.insert {} .host heap
  let first : Platform := { platform with registries := platform.registries.push {} }
  let second : Platform := { first with registries := first.registries.set place hosted }
  have hget : first.registries.get? place = some {} := by simp [first, place]
  have hget' : second.registries.get? place = some hosted := by simp [second, first, place]
  have hfirst : Kept notes first := h.added rfl rfl
  have hsecond : Kept (notes ++ [.registered place .host heap false]) second :=
    hfirst.registered hget (.inl rfl) rfl nofun rfl rfl
  have hkept : Kept (notes ++ [.registered place .host heap false] ++
      [.registered place .pinnedHost pinned false]) after :=
    hsecond.registered hget' (.inr (.inl rfl)) rfl nofun hord
      (by simp [hreg, second, first, place, hosted])
  rwa [List.append_assoc] at hkept

theorem after_foundForHost (h : Kept notes platform) :
    Kept (notes ++ Call.foundForHost.notes platform) (Call.foundForHost.after platform) := by
  obtain ⟨after, hdone, hord, hreg⟩ := Platform.addHostRegistry_eq platform
  simp only [Call.notes, Call.after, hdone, Action.after_of_ok hdone]
  exact h.hosted _ _ hord hreg

/-- The registry that all share is new the first time, and then the same. -/
theorem after_share (h : Kept notes platform) :
    Kept (notes ++ Call.share.notes platform) (Call.share.after platform) := by
  rw [Call.notes, Call.after]
  cases hshared : platform.sharedRegistry with
  | some slot =>
    have hsame : Platform.shareRegistry platform = .ok slot platform := by
      unfold Platform.shareRegistry
      rw [Action.get_run, hshared]
      rfl
    rw [Action.after_of_ok hsame, List.append_nil]
    exact h
  | none =>
    have hnew : Platform.shareRegistry platform = .ok platform.registries.next
        { platform with
          registries := platform.registries.push .shared
          sharedRegistry := some platform.registries.next } := by
      unfold Platform.shareRegistry
      rw [Action.get_run, hshared]
      rfl
    rw [Action.after_of_ok hnew]
    exact h.hosted _ _ rfl rfl

/-- What a call does to the registries is what is noted of it. -/
theorem next (h : Kept notes platform) (call : Call) (hcall : call.Proper notes)
    (hroom : BufferType.firstFresh + (creations (notes ++ call.notes platform)).length ≤
      BufferType.ordinals) :
    Kept (notes ++ call.notes platform) (call.after platform) := by
  cases call with
  | found => simpa only [Call.notes, List.append_nil] using h.after_found
  | foundForHost => exact h.after_foundForHost
  | share => exact h.after_share
  | create name => exact h.after_create name hroom
  | register place type factory => exact h.after_register place factory hcall
  | registerDevice place name device => exact h.after_registerDevice place name device hroom
  | unregister place type => exact h.after_unregister place hcall
  | lookup place type => simpa only [Call.notes, List.append_nil] using h.after_lookup place type

end Kept

theorem Course.kept (course : Course notes platform)
    (hroom : BufferType.firstFresh + (creations notes).length ≤ BufferType.ordinals) :
    Kept notes platform := by
  induction course with
  | start machine => exact .start machine
  | next call course hcall ih =>
    -- Ordinals are not given back, so there was room before if there is room now.
    refine (ih ?_).next call hcall hroom
    rw [creations_append, List.length_append] at hroom
    omega

/-! ## What a registry answers -/

def Taken (notes : List Note) (place : Nat) (name : String) : Prop :=
  ∃ type, (standing notes place type).isSome ∧ type.name = name

def Gains (registry : Registry) (notes : List Note) (platform : Platform) (place : Nat)
    (name : String) (device : Nat) : Prop :=
  ∃ type after now, Platform.registerDevice place name device platform =
      .ok (some (some platform.types.next)) after ∧
    after.types.get? platform.types.next = some type ∧ type.name = name ∧
    after.registries.get? place = some now ∧
    now.lookup type = some ⟨platform.nextFactory, .allocate (.device device) .single⟩ ∧
    ∀ other, Known notes other →
    other.ordinal ≠ type.ordinal ∧ now.lookup other = registry.lookup other

structure Serves (registry : Registry) (notes : List Note) (platform : Platform) (place : Nat) :
    Prop where
  /-- The factory that stands for the type is given under a new number. -/
  lookup : ∀ type, Known notes type → Platform.lookup place type platform =
    match standing notes place type with
    | some factory => .ok (some (some platform.factories.next))
        { platform with factories := platform.factories.push factory }
    | none => .ok (some none) platform
  contains : ∀ type, Known notes type → registry.contains type = (standing notes place type).isSome
  /-- A type is registered if it is absent. Otherwise this is reported, and nothing else changes. -/
  register : ∀ type factory, Known notes type → Platform.register place type factory platform =
    if (standing notes place type).isSome then
      .ok (some false) (platform.reported (.typeRefused type.name))
    else .ok (some true) (Platform.reported
      { platform with registries := platform.registries.set place (registry.insert type factory) }
      (.typeRegistered type.name))
  unregister : ∀ type, Known notes type → Platform.unregister place type platform =
    if (standing notes place type).isSome then .ok (some true) (Platform.reported
      { platform with registries := platform.registries.set place (registry.erase type) }
      (.typeUnregistered type.name))
    else .ok (some false) platform
  /-- A name that is taken is refused: this is reported, and nothing else changes. -/
  registerTaken : ∀ name device, Taken notes place name →
    Platform.registerDevice place name device platform =
      .ok (some none) (platform.reported (.nameTaken name))
  /-- Any other name is registered, if there is an ordinal left. -/
  registerFree : ∀ name device, ¬ Taken notes place name →
    BufferType.firstFresh + (creations notes).length < BufferType.ordinals →
    registry.Gains notes platform place name device
  named : ∀ name type, type ∈ registry.named name ↔
    (standing notes place type).isSome ∧ type.name = name
  /-- A registered type of the name is found if there is one. -/
  lookupName : ∀ name, match registry.lookupName name with
    | some type => (standing notes place type).isSome ∧ type.name = name
    | none => ¬ Taken notes place name
  size : registry.size = {type | (standing notes place type).isSome}.ncard
  /-- Two types share a name only where a type was registered otherwise than for a device. -/
  names_nodup : (∀ type factory, .registered place type factory false ∉ notes) →
    (registry.types.map (·.name)).Nodup

namespace Keeps

theorem mem_keys (h : registry.Keeps notes place) (hd : Distinct notes) :
    type ∈ registry.keys ↔ (standing notes place type).isSome := by
  constructor
  · intro hm
    rw [← h.lookup_eq type (h.known type hm)]
    exact lookup_isSome.mpr ⟨type, hm, rfl⟩
  · intro hs
    have hk := hd.known place type hs
    rw [← h.lookup_eq type hk] at hs
    obtain ⟨key, hkey, hsame⟩ := lookup_isSome.mp hs
    exact hd.apart (h.known key hkey) hk hsame ▸ hkey

theorem mem_named (h : registry.Keeps notes place) (hd : Distinct notes) :
    type ∈ registry.named name ↔ (standing notes place type).isSome ∧ type.name = name := by
  rw [named_eq, List.mem_filter, h.mem_keys hd, beq_iff_eq]

theorem named_isEmpty (h : registry.Keeps notes place) (hd : Distinct notes) :
    (registry.named name).isEmpty = false ↔ Taken notes place name := by
  rw [List.isEmpty_eq_false_iff_exists_mem]
  exact exists_congr fun type => h.mem_named hd

theorem size_eq (h : registry.Keeps notes place) (hd : Distinct notes) :
    registry.size = {type | (standing notes place type).isSome}.ncard := by
  have hset : {type | (standing notes place type).isSome} =
      (registry.keys.toFinset : Set BufferType) := by
    ext type
    simp [h.mem_keys hd]
  rw [Registry.size_eq, hset, Set.ncard_coe_finset,
    List.toFinset_card_of_nodup (List.Nodup.of_map _ h.nodup)]

theorem names_nodup (h : registry.Keeps notes place)
    (hn : ∀ type factory, .registered place type factory false ∉ notes) :
    (registry.types.map (·.name)).Nodup :=
  (((registry.keys.mergeSort_perm _).map _).nodup_iff).mpr (h.named hn)

theorem gains (h : registry.Keeps notes place) (hkept : Kept notes platform)
    (hg : platform.registries.get? place = some registry) (device : Nat)
    (hfree : ¬ Taken notes place name)
    (hlt : BufferType.firstFresh + (creations notes).length < BufferType.ordinals) :
    registry.Gains notes platform place name device := by
  have hempty : (registry.named name).isEmpty = true := by
    rw [← Bool.not_eq_false]
    exact fun htaken => hfree ((h.named_isEmpty hkept.distinct).mp htaken)
  have hnext := hkept.nextOrdinal.trans (Nat.mod_eq_of_lt hlt)
  let type : BufferType := ⟨name, platform.nextOrdinal⟩
  let factory : Factory := ⟨platform.nextFactory, .allocate (.device device) .single⟩
  have hnone : registry.lookup type = none := h.lookup_eq_none hkept.distinct hnext.ge
  refine ⟨type, _, registry.insert type factory, Platform.registerDevice_of_free device hg hempty,
    ?_, rfl, ?_, ?_, ?_⟩
  · simp [Platform.reported, type]
  · simp [Platform.reported, Table.lt_next hg, type, factory]
  · simp [lookup_insert hnone, factory]
  · intro other hother
    have hne : type.ordinal ≠ other.ordinal :=
      (hkept.distinct.ordinal_lt hother).trans_eq hnext.symm |>.ne'
    exact ⟨hne.symm, by rw [lookup_insert hnone, if_neg hne]⟩

end Keeps

end Registry

open Registry in
/-- Whatever was created, registered and unregistered, as long as no ordinal was given out twice: in
each registry a type stands under the factory of its last registration, unless it was unregistered,
and what the registry answers is said in these terms. -/
theorem registry_is_first_come_map {notes : List Note} {platform : Platform}
    (course : Course notes platform)
    (hroom : BufferType.firstFresh + (creations notes).length ≤ BufferType.ordinals) (place : Nat)
    (registry : Registry) (hg : platform.registries.get? place = some registry) :
    registry.Serves notes platform place := by
  have hkept := course.kept hroom
  have hd := hkept.distinct
  have hkeeps := hkept.keeps place registry hg
  -- all answers come down to what the notes say of a type
  have hcontains : ∀ type, Known notes type →
      registry.contains type = (standing notes place type).isSome := by
    intro type hk
    rw [contains_eq, hkeeps.lookup_eq type hk]
  constructor
  case lookup =>
    intro type hk
    have hlookup := hkeeps.lookup_eq type hk
    cases hs : standing notes place type with
    | none => exact Platform.lookup_of_absent hg (hlookup.trans hs)
    | some factory => exact Platform.lookup_of_present hg (hlookup.trans hs)
  case contains => exact hcontains
  case register =>
    intro type factory hk
    split
    · exact Platform.register_of_present factory hg ((hcontains type hk).trans ‹_›)
    · exact Platform.register_of_absent factory hg
        ((hcontains type hk).trans (Bool.eq_false_iff.mpr ‹_›))
  case unregister =>
    intro type hk
    split
    · exact Platform.unregister_of_present hg ((hcontains type hk).trans ‹_›)
    · exact Platform.unregister_of_absent hg ((hcontains type hk).trans (Bool.eq_false_iff.mpr ‹_›))
  case registerTaken =>
    intro name device htaken
    exact Platform.registerDevice_of_taken device hg ((hkeeps.named_isEmpty hd).mpr htaken)
  case registerFree =>
    intro name device hfree hlt
    exact hkeeps.gains hkept hg device hfree hlt
  case named => exact fun name type => hkeeps.mem_named hd
  case lookupName =>
    intro name
    rw [lookupName]
    split
    · next type hfound => exact (hkeeps.mem_named hd).mp (List.mem_of_head? hfound)
    · next hnone =>
      rw [← hkeeps.named_isEmpty hd, List.head?_eq_none_iff.mp hnone]
      exact nofun
  case size => exact hkeeps.size_eq hd
  case names_nodup => exact hkeeps.names_nodup

open Registry in
/-- Two types of one name come and go in a registry, while the name is taken twice in vain. -/
theorem registry_is_first_come_map_same_name :
    let first : BufferType := ⟨"gpu", 2⟩
    let second : BufferType := ⟨"gpu", 3⟩
    let refusing : Factory := ⟨9, .refuse .zeroItemSize⟩
    let device : Factory := ⟨2, .allocate (.device 0) .single⟩
    let calls : List Call :=
      [.found, .create "gpu", .register 0 first refusing, .register 0 first device,
      .registerDevice 0 "gpu" 0, .unregister 0 first, .registerDevice 0 "gpu" 0,
      .registerDevice 0 "gpu" 0]
    let platform := calls.foldl Call.after {}
    let notes : List Note :=
      [.created first, .registered 0 first refusing false, .unregistered 0 first,
      .created second, .registered 0 second device true]
    let registry : Registry := ⟨[(second, device)]⟩
    (Course notes platform ∧
      BufferType.firstFresh + (creations notes).length ≤ BufferType.ordinals ∧
      platform.registries.get? 0 = some registry) ∧ registry.Serves notes platform 0 := by
  intro first second refusing device calls platform notes registry
  have hknown : first ∈ creations [.created first] := by decide
  have hstart : Course [] {} := .start {}
  have hfounded := hstart.next .found trivial
  have hcreated := hfounded.next (.create "gpu") trivial
  have hrefusing := hcreated.next (.register 0 first refusing) (.inr (.inr hknown))
  have htaken := hrefusing.next (.register 0 first device) (.inr (.inr hknown))
  have hnameTaken := htaken.next (.registerDevice 0 "gpu" 0) trivial
  have hfreed := hnameTaken.next (.unregister 0 first) (.inr (.inr hknown))
  have hsecond := hfreed.next (.registerDevice 0 "gpu" 0) trivial
  have course : Course notes platform := hsecond.next (.registerDevice 0 "gpu" 0) trivial
  have hroom : BufferType.firstFresh + (creations notes).length ≤ BufferType.ordinals := by decide
  have hget : platform.registries.get? 0 = some registry := rfl
  exact ⟨⟨course, hroom, hget⟩, registry_is_first_come_map course hroom 0 registry hget⟩

end StreamBuffer
