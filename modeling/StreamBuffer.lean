import StreamBuffer.Platform.Memory
import StreamBuffer.Platform.Types
import StreamBuffer.Proofs.Checked
import StreamBuffer.Proofs.Groups
import StreamBuffer.Proofs.Cursors.Coherence
import StreamBuffer.Proofs.Cursors.Movement
import StreamBuffer.Proofs.Cursors.Attachment
import StreamBuffer.Proofs.Cursors.Relocation
import StreamBuffer.Proofs.Platforms
import StreamBuffer.Proofs.Memory.Devices
import StreamBuffer.Proofs.Memory.Storage
import StreamBuffer.Proofs.Memory.Transfers
import StreamBuffer.Proofs.Memory.Shifts
import StreamBuffer.Proofs.Motion
import StreamBuffer.Proofs.Calls
import StreamBuffer.Proofs.Sites
import StreamBuffer.Proofs.Steps
import StreamBuffer.Proofs.Allocation
import StreamBuffer.Proofs.Sizing
import StreamBuffer.Proofs.Provision
import StreamBuffer.Proofs.Safety
import StreamBuffer.Proofs.Stream
import StreamBuffer.Proofs.LateReaders
import StreamBuffer.Proofs.Cursors.Bounds
import StreamBuffer.Proofs.Mirrors
import StreamBuffer.Proofs.Transparency
import StreamBuffer.Proofs.Acts
import StreamBuffer.Proofs.Enclosure
import StreamBuffer.Proofs.Retry
import StreamBuffer.Proofs.Cursors.Strides
import StreamBuffer.Proofs.Asides
import StreamBuffer.Proofs.Batches
import StreamBuffer.Proofs.Contents
import StreamBuffer.Proofs.Interleaving
import StreamBuffer.Proofs.Transitions
import StreamBuffer.Proofs.Cursors.Inversion
import StreamBuffer.Proofs.Pruning
import StreamBuffer.Proofs.Forward
import StreamBuffer.Proofs.TagRoll
import StreamBuffer.Proofs.TagView
import StreamBuffer.Proofs.Tables
import StreamBuffer.Proofs.TagHiding
import StreamBuffer.Proofs.Cursors.Circulation
import StreamBuffer.Proofs.Conservation
import StreamBuffer.Proofs.Cursors.Foresight
import StreamBuffer.Proofs.Drainage
import StreamBuffer.Proofs.Gathering
import StreamBuffer.Proofs.Cursors.Polling
import StreamBuffer.Proofs.Polling
import StreamBuffer.Proofs.Cursors.Compaction
import StreamBuffer.Proofs.Compaction
import StreamBuffer.Proofs.Cursors.Declaration
import StreamBuffer.Proofs.Declarations
import StreamBuffer.Proofs.Entries
import StreamBuffer.Proofs.Registration
import StreamBuffer.Proofs.Quiet
import StreamBuffer.Proofs.Deeds
import StreamBuffer.Proofs.Counting
import StreamBuffer.Proofs.Lifetimes
import StreamBuffer.Proofs.Memory.Ownership
