import StreamBuffer.Journal.Event

/-!
# The journal

All that is observed of buffers from outside: the events in order, each under the name of the
owner of the buffer it belongs to, counters of relocations and transfers, and a gauge of live
buffers. A counter shows from the moment it is first raised, even by zero.
-/

namespace StreamBuffer

inductive Relocation where
  /-- Look-back is copied to the front when the writer reaches the end. -/
  | history
  /-- An unread tail is brought to the front for a reader that waits for more. -/
  | input
  /-- Unread data is moved to the front to make room for the writer. -/
  | output
deriving DecidableEq, Repr

namespace Relocation

def all : List Relocation := [.history, .input, .output]

def label : Relocation → String
  | history => "history"
  | input => "input"
  | output => "output"

end Relocation

/-- Counts by key; a key that was never counted has none. -/
abbrev Tally (κ : Type) := List (κ × Nat)

def Tally.raise {κ : Type} [DecidableEq κ] (tally : Tally κ) (key : κ) (amount : Nat) : Tally κ :=
  match tally with
  | [] => [(key, amount)]
  | (first, n) :: rest =>
    if first = key then (first, n + amount) :: rest else (first, n) :: Tally.raise rest key amount

/-- An event under the name of a buffer's owner, or under none. -/
structure Entry where
  owner : Option String
  event : Event
deriving DecidableEq, Repr

structure Journal where
  entries : List Entry := []
  relocations : Tally Relocation := []
  relocatedItems : Tally Relocation := []
  transferredBytes : Tally Context := []
  /-- The number of buffers that are allocated and not released. -/
  live : Nat := 0
  /-- What the gauge of live buffers shows, once it shows anything. -/
  gauge : Option Nat := none

namespace Journal

def log (journal : Journal) (owner : Option String) (event : Event) : Journal :=
  { journal with entries := journal.entries ++ [⟨owner, event⟩] }

def countRelocation (journal : Journal) (kind : Relocation) (items : Nat) : Journal :=
  { journal with
    relocations := journal.relocations.raise kind 1
    relocatedItems := journal.relocatedItems.raise kind items }

def countTransfer (journal : Journal) (context : Context) (bytes : Nat) : Journal :=
  { journal with transferredBytes := journal.transferredBytes.raise context bytes }

def countAllocated (journal : Journal) : Journal :=
  { journal with live := journal.live + 1, gauge := some (journal.live + 1) }

def countReleased (journal : Journal) : Checked Journal := do
  let live ← Word.sub journal.live 1
  return { journal with live, gauge := some live }

/-- The journal without its events. Counters stay. -/
def forget (journal : Journal) : Journal := { journal with entries := [] }

/-! ## Names of the metrics -/

inductive Metric where
  | relocations
  | relocatedItems
  | transferredBytes
  | liveBuffers
deriving DecidableEq, Repr

namespace Metric

def all : List Metric := [.relocatedItems, .relocations, .transferredBytes, .liveBuffers]

def kind : Metric → String
  | liveBuffers => "gauge"
  | _ => "counter"

def name : Metric → String
  | relocations => "sigbuf_relocations_total"
  | relocatedItems => "sigbuf_relocated_items_total"
  | transferredBytes => "sigbuf_transfer_bytes_total"
  | liveBuffers => "sigbuf_buffers_allocated"

def unit : Metric → String
  | transferredBytes => "bytes"
  | _ => "count"

def description : Metric → String
  | relocations => "Data relocations performed by single-mapped buffers"
  | relocatedItems => "Items moved or copied by single-mapped relocations"
  | transferredBytes => "Bytes copied between host and device regions after production"
  | liveBuffers => "Number of stream buffers currently allocated"

/-- The name of one series of the metric, told apart by a label. -/
def series (metric : Metric) (label value : String) : String :=
  metric.name ++ "\x7b" ++ label ++ "=" ++ value ++ "\x7d"

end Metric

def counters (journal : Journal) : List (String × Nat) :=
  (journal.relocations.map fun (kind, n) => (Metric.relocations.series "kind" kind.label, n)) ++
  (journal.relocatedItems.map fun (kind, n) =>
    (Metric.relocatedItems.series "kind" kind.label, n)) ++
  (journal.transferredBytes.map fun (context, n) =>
    (Metric.transferredBytes.series "direction" context.label, n))

def gauges (journal : Journal) : List (String × Nat) :=
  match journal.gauge with
  | some n => [(Metric.liveBuffers.name ++ "\x7b\x7d", n)]
  | none => []

end Journal

end StreamBuffer
