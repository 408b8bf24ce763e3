import StreamBuffer.Backend

/-!
# Registries

A storage strategy is chosen by its type. Types are told apart by their ordinals, so that two
types of one name differ; a registry says which factory makes the buffers of a type, and the first
registration of a type stands until it is taken back.
-/

namespace StreamBuffer

structure BufferType where
  name : String
  ordinal : Nat
deriving DecidableEq, Repr

namespace BufferType

/-- Heap memory. The types of the host are taken to be the first two that were created. -/
def host : BufferType := ⟨"host", 0⟩

def pinnedHost : BufferType := ⟨"pinned_host", 1⟩

/-- The ordinal of the first type that is not built in. -/
def firstFresh : Nat := 2

/-- The number of ordinals. After the last one they are given out from the first again. -/
def ordinals : Nat := 1 <<< 32

def isBuiltIn (type : BufferType) : Bool := type.ordinal < firstFresh

def same (a b : BufferType) : Bool := a.ordinal == b.ordinal

end BufferType

/-- How a factory answers a request. A factory may be any function; these are the two kinds of which
there are any here. -/
inductive Factory.Rule where
  /-- It allocates from a backend. -/
  | allocate (backend : Backend) (mapping : Mapping)
  /-- It makes nothing. -/
  | refuse (error : Error)
deriving DecidableEq, Repr

/-- A maker of buffers. Factories are told apart by their identities. -/
structure Factory where
  id : Nat
  rule : Factory.Rule
deriving DecidableEq, Repr

structure Registry where
  entries : List (BufferType × Factory) := []

namespace Registry

instance : Inhabited Registry := ⟨{}⟩

def lookup (registry : Registry) (type : BufferType) : Option Factory :=
  (registry.entries.find? (·.1.same type)).map (·.2)

def contains (registry : Registry) (type : BufferType) : Bool :=
  registry.entries.any (·.1.same type)

/-- Puts a factory under a type, in place of the one that was there. -/
def insert (registry : Registry) (type : BufferType) (factory : Factory) : Registry :=
  if registry.contains type then
    ⟨registry.entries.map fun entry => if entry.1.same type then (entry.1, factory) else entry⟩
  else ⟨registry.entries ++ [(type, factory)]⟩

def erase (registry : Registry) (type : BufferType) : Registry :=
  ⟨registry.entries.filter fun entry => !entry.1.same type⟩

def size (registry : Registry) : Nat := registry.entries.length

def isEmpty (registry : Registry) : Bool := registry.entries.isEmpty

def named (registry : Registry) (name : String) : List BufferType :=
  (registry.entries.map (·.1)).filter (·.name == name)

def lookupName (registry : Registry) (name : String) : Option BufferType :=
  (registry.named name).head?

def types (registry : Registry) : List BufferType :=
  (registry.entries.map (·.1)).mergeSort fun a b => a.ordinal ≤ b.ordinal

def text (registry : Registry) : String :=
  let names := (registry.entries.map (·.1.name)).mergeSort fun a b => a ≤ b
  Text.record "BufferTypeRegistry" [("types", Text.listing (names.map Text.quoted))]

end Registry

end StreamBuffer
