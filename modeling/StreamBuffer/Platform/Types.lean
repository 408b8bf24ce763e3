import StreamBuffer.Platform.Lifetime

/-!
# Types, factories and registries

New types and factories get identities that were never given out before. A registration is
reported, and so is one that was refused.
-/

namespace StreamBuffer.Platform

def addType (type : BufferType) : Action Platform Nat := do
  let slot := (← get).types.next
  modify fun platform => { platform with types := platform.types.push type }
  return slot

def freshType (name : String) : Action Platform BufferType := do
  let ordinal := (← get).nextOrdinal
  modify fun platform => { platform with nextOrdinal := (ordinal + 1) % BufferType.ordinals }
  return ⟨name, ordinal⟩

def addFactory (factory : Factory) : Action Platform Nat := do
  let slot := (← get).factories.next
  modify fun platform => { platform with factories := platform.factories.push factory }
  return slot

def freshFactory (rule : Factory.Rule) : Action Platform Factory := do
  let id := (← get).nextFactory
  modify fun platform => { platform with nextFactory := id + 1 }
  return ⟨id, rule⟩

def make (factory : Factory) (request : Request) : Action Platform Nat :=
  match factory.rule with
  | .allocate backend mapping => allocate backend { request with mapping }
  | .refuse error => refuse error

def addRegistry (registry : Registry) : Action Platform Nat := do
  let slot := (← get).registries.next
  modify fun platform => { platform with registries := platform.registries.push registry }
  return slot

/-- The registry that all share: it is the same one whenever it is asked for. -/
def shareRegistry : Action Platform Nat := do
  if let some slot := (← get).sharedRegistry then return slot
  let slot ← addRegistry .shared
  modify fun platform => { platform with sharedRegistry := some slot }
  return slot

def setRegistry (slot : Nat) (registry : Registry) : Action Platform Unit :=
  modify fun platform => { platform with registries := platform.registries.set slot registry }

/-- Registers a factory for a type, unless the type has one. Tells whether it did. -/
def register (slot : Nat) (type : BufferType) (factory : Factory) :
    Action Platform (Option Bool) :=
  onSlot (·.registries) slot fun registry => do
    if registry.contains type then
      log (.typeRefused type.name)
      return false
    setRegistry slot (registry.insert type factory)
    log (.typeRegistered type.name)
    return true

def addHostRegistry : Action Platform Nat := do
  let slot ← addRegistry {}
  discard (register slot .host (← freshFactory (.allocate .heap .single)))
  discard (register slot .pinnedHost (← freshFactory (.allocate .pinned .single)))
  return slot

/-- Registers a new type for a device, unless the name is taken. Gives the number of the type. -/
def registerDevice (slot : Nat) (name : String) (device : Nat) :
    Action Platform (Option (Option Nat)) :=
  onSlot (·.registries) slot fun registry => do
    unless (registry.named name).isEmpty do
      log (.nameTaken name)
      return none
    let type ← freshType name
    let factory ← freshFactory (.allocate (.device device) .single)
    setRegistry slot (registry.insert type factory)
    log (.deviceTypeRegistered name)
    some <$> addType type

/-- Takes back the registration of a type. Tells whether there was one. -/
def unregister (slot : Nat) (type : BufferType) : Action Platform (Option Bool) :=
  onSlot (·.registries) slot fun registry => do
    unless registry.contains type do return false
    setRegistry slot (registry.erase type)
    log (.typeUnregistered type.name)
    return true

/-- The factory of a type under a number of its own, if the type is registered. -/
def lookup (slot : Nat) (type : BufferType) : Action Platform (Option (Option Nat)) :=
  onSlot (·.registries) slot fun registry =>
    match registry.lookup type with
    | some factory => some <$> addFactory factory
    | none => return none

end StreamBuffer.Platform
