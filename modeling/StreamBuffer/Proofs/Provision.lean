import Mathlib.Order.Bounds.Defs
import StreamBuffer.Proofs.Allocation

/-!
# What a request comes to

`allocation_is_exact`: a buffer that is given has the least capacity that suits and two regions of
zeros, one in each domain of its context, and it is given if the backend has the memory.
`allocation_breaks_off_iff`: of the sizes that do not fit, only the product of items and item size
is refused. A capacity that is no word, and a size that the memory of the backend cannot work with,
break the allocation off instead.
-/

namespace StreamBuffer

/-! ## How attempts end -/

/-- What stopped is a fault exactly if it has to be one, and otherwise such a refusal. -/
def Stop.Meets (stop : Stop) (breaks : Prop) (refusals : Error → Prop) : Prop :=
  match stop with
  | .fault _ => breaks
  | .error reason => ¬ breaks ∧ refusals reason

/-- The attempt succeeds exactly in one case, breaks off exactly in another, and is otherwise
refused with such errors. -/
def Attempt.Ends {α : Type} (attempt : Attempt α) (grants breaks : Prop) (refusals : Error → Prop) :
    Prop :=
  match attempt with
  | .ok _ => grants ∧ ¬ breaks
  | .error stop => ¬ grants ∧ stop.Meets breaks refusals

/-- The same of an action, which leaves the state alone unless it succeeds. -/
def Action.Ends {σ α : Type} (action : Action σ α) (s : σ) (grants breaks : Prop)
    (refusals : Error → Prop) : Prop :=
  action.Ensures s (fun _ _ => grants ∧ ¬ breaks) fun stop t => t = s ∧ ¬ grants ∧
    stop.Meets breaks refusals

section Ends

variable {σ α β : Type} {s : σ} {attempt : Attempt α} {next : α → Attempt β} {action : Action σ α}
variable {rest : α → Action σ β}
variable {grants grants' breaks breaks' : Prop} {refusals refusals' : Error → Prop} {error : Error}
variable {stop : Stop}

theorem Stop.Meets.mono (h : stop.Meets breaks refusals) (hb : breaks ↔ breaks')
    (hr : ∀ e, refusals e → refusals' e) : stop.Meets breaks' refusals' := by
  cases stop with
  | fault fault => exact hb.mp h
  | error error => exact ⟨mt hb.mpr h.1, hr error h.2⟩

namespace Attempt.Ends

theorem pure {a : α} (hg : grants) (hb : ¬ breaks) :
    (Pure.pure a : Attempt α).Ends grants breaks refusals :=
  ⟨hg, hb⟩

theorem refused (hg : ¬ grants) (hb : ¬ breaks) (hr : refusals error) :
    (refuse error : Attempt α).Ends grants breaks refusals := ⟨hg, hb, hr⟩

theorem guard {p : Prop} [Decidable p] (hp : p → ¬ grants ∧ ¬ breaks ∧ refusals error)
    (hn : ¬ p → attempt.Ends grants breaks refusals) :
    (if p then (refuse error : Attempt PUnit) >>= fun _ => attempt else attempt).Ends
      grants breaks refusals := by
  split
  · exact hp ‹_›
  · exact hn ‹_›

theorem bind (h : attempt.Ends grants' breaks refusals) (hg : grants → grants')
    (hn : ∀ a, attempt = .ok a → grants' → ¬ breaks → (next a).Ends grants breaks refusals) :
    (attempt >>= next).Ends grants breaks refusals := by
  cases attempt with
  | ok a => exact hn a rfl h.1 h.2
  | error stop => exact ⟨mt hg h.1, h.2⟩

theorem mono (h : attempt.Ends grants breaks refusals) (hg : grants ↔ grants')
    (hb : breaks ↔ breaks') (hr : ∀ e, refusals e → refusals' e) :
    attempt.Ends grants' breaks' refusals' := by
  cases attempt with
  | ok a => exact ⟨hg.mp h.1, mt hb.mpr h.2⟩
  | error stop => exact ⟨mt hg.mpr h.1, Stop.Meets.mono h.2 hb hr⟩

theorem wrap {cause : Error → Error} (h : attempt.Ends grants breaks refusals)
    (hc : ∀ e, refusals e → refusals' (cause e)) :
    (attempt.wrap cause).Ends grants breaks refusals' := by
  cases attempt with
  | ok a => exact h
  | error stop =>
    cases stop with
    | fault fault => exact h
    | error error => exact ⟨h.1, h.2.1, hc error h.2.2⟩

theorem lift (h : attempt.Ends grants breaks refusals) :
    (liftM attempt : Action σ α).Ends s grants breaks refusals := by
  cases attempt with
  | ok a => exact h
  | error stop => exact ⟨rfl, h⟩

end Attempt.Ends

namespace Action.Ends

theorem bind (h : action.Ends s grants breaks refusals)
    (hn : ∀ a t, (rest a).Ensures t (fun _ _ => True) fun _ _ => False) :
    (action >>= rest).Ends s grants breaks refusals :=
  Action.Ensures.bind h fun a t hd => (hn a t).mono (fun _ _ _ => hd) nofun

theorem mono (h : action.Ends s grants breaks refusals) (hg : grants ↔ grants')
    (hb : breaks ↔ breaks') :
    action.Ends s grants' breaks' refusals :=
  Action.Ensures.mono h (fun _ _ hd => ⟨hg.mp hd.1, mt hb.mpr hd.2⟩) fun _ _ hs =>
    ⟨hs.1, mt hg.mpr hs.2.1, hs.2.2.mono hb fun _ he => he⟩

theorem ok_iff (h : action.Ends s grants breaks refusals) :
    (∃ a t, action s = .ok a t) ↔ grants := by
  refine ⟨fun ⟨a, t, he⟩ => (h.of_ok he).1, fun hg => ?_⟩
  cases he : action s with
  | ok a t => exact ⟨a, t, rfl⟩
  | error stop t => exact absurd hg (h.of_error he).2.1

theorem fault_iff (h : action.Ends s grants breaks refusals) :
    (∃ fault t, action s = .error (.fault fault) t) ↔ breaks := by
  refine ⟨fun ⟨fault, t, he⟩ => (h.of_error he).2.2, fun hb => ?_⟩
  cases he : action s with
  | ok a t => exact absurd hb (h.of_ok he).2
  | error stop t =>
    cases stop with
    | fault fault => exact ⟨fault, t, rfl⟩
    | error error => exact absurd hb (h.of_error he).2.2.1

end Action.Ends

end Ends

/-! ## Memory that is asked for -/

namespace Segment

variable {size : Nat}

def HeapGrants (size : Nat) : Prop := 0 < size ∧ size ≤ limit

def HeapBursts (size : Nat) : Prop := limit < size

instance : Decidable (HeapBursts size) := inferInstanceAs (Decidable (limit < size))

theorem checkHeap_ends : (checkHeap size).Ends (HeapGrants size) (HeapBursts size)
    fun error => error.kind = .allocationFailed := by
  unfold checkHeap
  refine .guard (fun hz => ?_) fun hz => ?_
  · subst hz
    exact ⟨fun hg => Nat.lt_irrefl 0 hg.1, Nat.not_lt_zero _, rfl⟩
  split
  · exact ⟨fun hg => Nat.not_lt.mpr hg.2 ‹_›, ‹limit < size›⟩
  · exact .pure ⟨Nat.pos_of_ne_zero hz, Nat.not_lt.mp ‹_›⟩ ‹¬ limit < size›

theorem allocateHeap_ends : (allocateHeap size).Ends (HeapGrants size) (HeapBursts size)
    fun error => error.kind = .allocationFailed :=
  checkHeap_ends.bind id fun _ _ hg hb => .pure hg hb

end Segment

namespace Paging

variable {paging : Paging} {size : Nat}

def span (paging : Paging) (size : Nat) : Nat :=
  Sizing.ceilDiv size paging.pageSize * paging.pageSize

def Grants (paging : Paging) (size : Nat) : Prop :=
  0 < size ∧ paging.refusal (paging.span size) = none

def Bursts (paging : Paging) (size : Nat) : Prop := Word.limit ≤ paging.span size

instance : Decidable (paging.Bursts size) :=
  inferInstanceAs (Decidable (Word.limit ≤ paging.span size))

theorem Grants.span_lt (h : paging.Grants size) : paging.span size < Word.limit :=
  Nat.lt_of_le_of_lt (paging.mapped_le _ h.2) (by decide)

theorem checkPinned_ends : (Segment.checkPinned paging size).Ends (paging.Grants size)
    (paging.Bursts size) fun _ => True := by
  unfold Segment.checkPinned
  refine .guard (fun hz => ?_) fun hz => ?_
  · subst hz
    have hspan : paging.span 0 ≤ 0 :=
      Sizing.ceilDiv_mul_le paging.pageSize_pos (Nat.le_refl 0) (Nat.dvd_zero _)
    refine ⟨fun hg => Nat.lt_irrefl 0 hg.1, fun hb => ?_, trivial⟩
    exact absurd (Nat.le_trans hb hspan) (by decide)
  dsimp only [Word.mul]
  rw [liftM_ite_bind]
  split
  · have hb : ¬ paging.Bursts size := Nat.not_le.mpr ‹_›
    cases hrefusal : paging.refusal (Sizing.ceilDiv size paging.pageSize * paging.pageSize) with
    | some errno => exact .refused (fun hg => nomatch hg.2.symm.trans hrefusal) hb trivial
    | none => exact .pure ⟨Nat.pos_of_ne_zero hz, hrefusal⟩ hb
  · have hle : paging.Bursts size := Nat.not_lt.mp ‹_›
    exact ⟨fun hg => Nat.not_lt.mpr hle hg.span_lt, hle⟩

end Paging

namespace Backend

variable {paging : Paging} {devices : Devices} {context : Context} {number bytes : Nat}

theorem checkPinned_ends : (checkPinned paging bytes).Ends (paging.Grants bytes)
    (paging.Bursts bytes) fun error => error.kind = .allocationFailed :=
  Paging.checkPinned_ends.wrap fun _ _ => rfl

theorem deviceRun_ends : (deviceRun devices number bytes).Ends
    ((devices.get number).refusal = none ∧ Segment.HeapGrants bytes)
    ((devices.get number).refusal = none ∧ Segment.HeapBursts bytes)
    fun error => error.kind = .allocationFailed := by
  have hdevice : ((devices.get number).allocate bytes).Ends
      ((devices.get number).refusal = none ∧ Segment.HeapGrants bytes)
      ((devices.get number).refusal = none ∧ Segment.HeapBursts bytes) fun _ => True := by
    unfold Device.allocate
    cases hrefusal : (devices.get number).refusal with
    | some error => exact .refused (fun h => nomatch h.1) (fun h => nomatch h.1) trivial
    | none =>
      exact (Segment.allocateHeap_ends.mono (by simp only [true_and]) (by simp only [true_and])
        fun _ _ => trivial).bind id
        fun _ _ hg hb => .pure hg hb
  have hrun : (DeviceRun.allocate devices number bytes).Ends
      ((devices.get number).refusal = none ∧ Segment.HeapGrants bytes)
      ((devices.get number).refusal = none ∧ Segment.HeapBursts bytes) fun _ => True :=
    hdevice.bind id fun _ _ hg hb => .pure hg hb
  refine hrun.wrap fun error _ => ?_
  split
  · assumption
  · rfl

def Grants (backend : Backend) (paging : Paging) (devices : Devices) (context : Context)
    (bytes : Nat) : Prop :=
  match backend, context with
  | .heap, context => context = .hostToHost ∧ Segment.HeapGrants bytes
  | .pinned, context => context = .hostToHost ∧ paging.Grants bytes
  | .device _, .hostToHost => Segment.HeapGrants bytes
  | .device number, .deviceToDevice =>
    (devices.get number).refusal = none ∧ Segment.HeapGrants bytes
  | .device number, .hostToDevice | .device number, .deviceToHost =>
    paging.Grants bytes ∧ (devices.get number).refusal = none

/-- The memory the backend asks for in this context bursts. Before it asks a device, the device may
have refused. -/
def Overtaxed (backend : Backend) (paging : Paging) (devices : Devices) (context : Context)
    (bytes : Nat) : Prop :=
  match backend, context with
  | .heap, context => context = .hostToHost ∧ Segment.HeapBursts bytes
  | .pinned, context => context = .hostToHost ∧ paging.Bursts bytes
  | .device _, .hostToHost => Segment.HeapBursts bytes
  | .device number, .deviceToDevice =>
    (devices.get number).refusal = none ∧ Segment.HeapBursts bytes
  | .device _, .hostToDevice | .device _, .deviceToHost => paging.Bursts bytes

def Declines (backend : Backend) (context : Context) (error : Error) : Prop :=
  error.kind = .allocationFailed ∨ error.kind = .unsupported ∧ backend.supports context = false

theorem allocateHost_ends {backend : Backend} {kind : Segment.Kind} {grants breaks : Prop}
    (hs : ∀ context, backend.supports context = (context == .hostToHost))
    (hsegment : (hostSegment paging kind bytes).Ends grants breaks
      fun error => error.kind = .allocationFailed) :
    (allocateHost backend kind paging devices context bytes).Ends (context = .hostToHost ∧ grants)
      (context = .hostToHost ∧ breaks) (backend.Declines context) := by
  unfold allocateHost
  rw [hs]
  by_cases hc : context = .hostToHost
  · subst hc
    exact Attempt.Ends.bind (hsegment.mono (by simp only [true_and]) (by simp only [true_and])
      fun _ h => .inl h) id fun _ _ hg hb => .pure hg hb
  · rw [if_neg (by simpa using hc)]
    exact .refused (fun h => hc h.1) (fun h => hc h.1) (.inr ⟨rfl, by rw [hs]; simpa using hc⟩)

theorem allocateDevice_ends : (allocateDevice paging devices number context bytes).Ends
    ((Backend.device number).Grants paging devices context bytes)
    ((Backend.device number).Overtaxed paging devices context bytes)
    ((Backend.device number).Declines context) := by
  have onPair : context.crosses = true →
      (checkPinned paging bytes >>= fun _ => deviceRun devices number bytes >>=
        fun p => Storage.ofPair context (.host (.zeroed .pinned bytes)) (.device p.1) >>=
        fun made => pure (made, p.2)).Ends
        (paging.Grants bytes ∧ (devices.get number).refusal = none) (paging.Bursts bytes)
        ((Backend.device number).Declines context) := fun hc => by
    refine (checkPinned_ends.mono .rfl .rfl fun _ h => .inl h).bind And.left fun _ hp hg hb => ?_
    -- Pinned memory that was had is small enough for a device.
    have hle := Segment.le_of_checkPinned (Attempt.wrap_eq_ok hp)
    have hrun : (deviceRun devices number bytes).Ends
        (paging.Grants bytes ∧ (devices.get number).refusal = none) (paging.Bursts bytes)
        ((Backend.device number).Declines context) :=
      deviceRun_ends.mono ⟨fun h => ⟨hg, h.1⟩, fun h => ⟨h.2, hg.1, hle⟩⟩
        (iff_of_false (fun h => Nat.not_lt.mpr hle h.2) hb) fun _ h => .inl h
    refine hrun.bind id fun p hd hboth _ => ?_
    rw [ofPair_eq hc ((Bytes.size_zeroed bytes).trans (deviceRun_length hd).symm)]
    exact .pure hboth hb
  cases context with
  | hostToHost =>
    exact (Segment.allocateHeap_ends.mono .rfl .rfl fun _ h => .inl h).bind id
      fun _ _ hg hb => .pure hg hb
  | deviceToDevice =>
    exact (deviceRun_ends.mono .rfl .rfl fun _ h => .inl h).bind id fun _ _ hg hb => .pure hg hb
  | hostToDevice => exact onPair rfl
  | deviceToHost => exact onPair rfl

theorem allocate_ends {backend : Backend} {machine : Machine} :
    (backend.allocate context bytes).Ends machine
      (backend.Grants machine.paging machine.devices context bytes)
      (backend.Overtaxed machine.paging machine.devices context bytes)
        (backend.Declines context) := by
  unfold allocate
  refine Action.Ensures.get_bind ?_
  cases backend with
  | heap =>
    have hsegment : (hostSegment machine.paging .heap bytes).Ends (Segment.HeapGrants bytes)
        (Segment.HeapBursts bytes) fun error => error.kind = .allocationFailed :=
      Segment.allocateHeap_ends
    exact (allocateHost_ends (fun _ => rfl) hsegment).lift
  | pinned =>
    have hsegment : (hostSegment machine.paging .pinned bytes).Ends (machine.paging.Grants bytes)
        (machine.paging.Bursts bytes) fun error => error.kind = .allocationFailed :=
      checkPinned_ends.bind id fun _ _ hg hb => .pure hg hb
    exact (allocateHost_ends (fun _ => rfl) hsegment).lift
  | device number => exact allocateDevice_ends.lift.bind fun _ _ => trivial

structure Serves (backend : Backend) (machine : Machine) (request : Request) : Prop where
  itemSize_ne : request.itemSize ≠ 0
  items_ne : request.items ≠ 0
  bytes_lt : request.measures.bytes < Word.limit
  grants : backend.Grants machine.paging machine.devices request.owner.context
    request.measures.bytes

/-- What is asked for cannot be worked out in words: the capacity, or the memory for a size that
fits. -/
structure BreaksOff (backend : Backend) (machine : Machine) (request : Request) : Prop where
  itemSize_ne : request.itemSize ≠ 0
  items_ne : request.items ≠ 0
  beyond : Word.limit ≤ request.measures.capacity ∨
    request.measures.bytes < Word.limit ∧
      backend.Overtaxed machine.paging machine.devices request.owner.context request.measures.bytes

end Backend

/-! ## Breaking off -/

variable {backend : Backend} {request : Request} {id : Nat} {machine : Machine}

theorem Buffer.allocate_of_exceeded (hsize : request.itemSize ≠ 0) (hitems : request.items ≠ 0)
    (hcap : request.measures.capacity < Word.limit) (hbytes : Word.limit ≤ request.measures.bytes) :
    Buffer.allocate backend request id machine =
      .error (.error (.addressSpaceExceeded request.measures.capacity request.itemSize))
        machine := by
  unfold Buffer.allocate
  rw [Request.geometry_eq, if_neg hsize, if_neg hitems, if_pos hcap, if_neg (Nat.not_lt.mpr hbytes)]
  rfl

/-- **Ends of an allocation.** It breaks off where words do not suffice, and every other stop is a
refusal of the memory or of the context. -/
theorem Buffer.allocate_ends : (Buffer.allocate backend request id).Ends machine
    (backend.Serves machine request) (backend.BreaksOff machine request)
    (backend.Declines request.owner.context) := by
  unfold Buffer.allocate
  rw [Request.geometry_eq]
  by_cases hsize : request.itemSize = 0
  · rw [if_pos hsize]
    exact ⟨rfl, fun h => h.itemSize_ne hsize, fun h => h.itemSize_ne hsize, .inl rfl⟩
  by_cases hitems : request.items = 0
  · rw [if_neg hsize, if_pos hitems]
    exact ⟨rfl, fun h => h.items_ne hitems, fun h => h.items_ne hitems, .inl rfl⟩
  rw [if_neg hsize, if_neg hitems]
  by_cases hcap : request.measures.capacity < Word.limit
  · by_cases hbytes : request.measures.bytes < Word.limit
    · rw [if_pos hcap, if_pos hbytes]
      refine Action.Ensures.attempt_bind rfl
        (Action.Ends.bind (Backend.allocate_ends.mono ?_ ?_) fun _ _ => trivial)
      · exact ⟨fun h => ⟨hsize, hitems, hbytes, h⟩, fun h => h.grants⟩
      · exact ⟨fun h => ⟨hsize, hitems, .inr ⟨hbytes, h⟩⟩,
          fun h => h.beyond.elim (fun hle => absurd hcap (Nat.not_lt.mpr hle)) And.right⟩
    · rw [if_pos hcap, if_neg hbytes]
      exact ⟨rfl, fun h => hbytes h.bytes_lt,
        fun h => h.beyond.elim (fun hle => Nat.not_lt.mpr hle hcap) fun hb => hbytes hb.1, .inl rfl⟩
  · rw [if_neg hcap]
    exact ⟨rfl, fun h => hcap (Request.capacity_lt_of_bytes_lt h.itemSize_ne h.bytes_lt),
      hsize, hitems, .inl (Nat.not_lt.mp hcap)⟩

/-- **Breaking off.** An allocation breaks off exactly where the capacity is no word or the memory
of the backend bursts. Of a capacity that is a word, a size in bytes that is none is refused, as is
every other request that gets no buffer. -/
theorem allocation_breaks_off_iff (backend : Backend) (request : Request) (id : Nat)
    (machine : Machine) :
    ((∃ fault after, Buffer.allocate backend request id machine = .error (.fault fault) after) ↔
      backend.BreaksOff machine request) ∧
    (request.itemSize ≠ 0 → request.items ≠ 0 → request.measures.capacity < Word.limit →
      Word.limit ≤ request.measures.bytes →
      Buffer.allocate backend request id machine =
        .error (.error (.addressSpaceExceeded request.measures.capacity request.itemSize)) machine)
          ∧
    ∀ error after, Buffer.allocate backend request id machine = .error (.error error) after →
      after = machine ∧ (error.kind = .allocationFailed ∨
        error.kind = .unsupported ∧ backend.supports request.owner.context = false) := by
  have hends := @Buffer.allocate_ends backend request id machine
  exact ⟨hends.fault_iff, Buffer.allocate_of_exceeded,
    fun error after ha => ⟨(hends.of_error ha).1, (hends.of_error ha).2.2.2⟩⟩

/-- Coprime steps of a producer and a consumer; and one byte per item, one less than all words: to
be mapped in whole pages, and refused if there are two bytes per item. -/
theorem allocation_breaks_off_iff_near_limit :
    (∃ fault after, Buffer.allocate .heap
        { items := 1, itemSize := 1, downstream := 3, producer := { relativeRate := 1 <<< 63 } } 0
          {} =
        .error (.fault fault) after) ∧
      (∃ fault after, Buffer.allocate .pinned { items := Word.limit - 1, itemSize := 1 } 0 {} =
        .error (.fault fault) after) ∧
      Buffer.allocate .heap { items := Word.limit - 1, itemSize := 2 } 0 {} =
        .error (.error (.addressSpaceExceeded (Word.limit - 1) 2)) {} :=
  ⟨(allocation_breaks_off_iff ..).1.mpr ⟨by decide, by decide, .inl (by decide)⟩,
    (allocation_breaks_off_iff ..).1.mpr ⟨by decide, by decide, .inr ⟨by decide, rfl, by decide⟩⟩,
    (allocation_breaks_off_iff ..).2.1 (by decide) (by decide) (by decide) (by decide)⟩

/-- The steps of a producer, those of producer and consumer, the capacity, the pages and the bytes
on the heap: each of them breaks an allocation off. -/
theorem allocation_can_break_off :
    Buffer.allocate .heap
      { items := 1, itemSize := 1, producer := { relativeRate := 1 <<< 63, outputMultiple := 3 } }
        0 {} = .error (.fault .mulOverflow) {} ∧
      Buffer.allocate .heap
        { items := 1, itemSize := 1, downstream := 3, producer := { relativeRate := 1 <<< 63 } }
        0 {} = .error (.fault .mulOverflow) {} ∧
      Buffer.allocate .heap { items := Word.limit - 1, itemSize := 1, downstream := 2 } 0 {} =
        .error (.fault .mulOverflow) {} ∧
      Buffer.allocate .pinned { items := Word.limit - 1, itemSize := 1 } 0 {} = .error
        (.fault .mulOverflow) {} ∧
      Buffer.allocate .heap { items := 1 <<< 63, itemSize := 1 } 0 {} =
        .error (.fault .capacityOverflow) {} :=
  ⟨rfl, rfl, rfl, rfl, rfl⟩

/-! ## What is given -/

structure Region.Blank (region : Region) (devices : Devices) (domain : Domain) (size : Nat) :
    Prop where
  domain_eq : region.domain = domain
  size_eq : region.size = size
  bytes_eq : region.bytes devices = .zeroed size

structure Storage.Blank (storage : Storage) (devices : Devices) (context : Context) (size : Nat) :
    Prop where
  writeRegion : storage.writeRegion.Blank devices context.writeDomain size
  readRegion : storage.readRegion.Blank devices context.readDomain size

namespace Backend

variable {paging : Paging} {devices others : Devices} {context : Context} {storage : Storage}
variable {number bytes : Nat}

theorem blank_host {segment : Segment} (h : segment.bytes = .zeroed bytes) :
    (Region.host segment).Blank devices .host bytes :=
  ⟨rfl, by simp [Region.size, Segment.size, h], h⟩

theorem blank_device {run : DeviceRun} (hr : (Backend.device number).Ready devices)
    (h : deviceRun devices number bytes = .ok (run, others)) :
    (Region.device run).Blank others .device bytes :=
  ⟨rfl, (deviceRun_live hr h).2.2.1, (deviceRun_live hr h).2.2.2.1⟩

theorem allocateHost_blank {backend : Backend} {kind : Segment.Kind}
    (hb : backend.supports context = true → context = .hostToHost)
    (h : allocateHost backend kind paging devices context bytes = .ok storage) :
    storage.Blank devices context bytes := by
  obtain ⟨segment, hbytes, -, rfl, rfl⟩ := allocateHost_eq_ok hb h
  exact ⟨blank_host hbytes, blank_host hbytes⟩

theorem allocateDevice_blank (hr : (Backend.device number).Ready devices)
    (h : allocateDevice paging devices number context bytes = .ok (storage, others)) :
    storage.Blank others context bytes := by
  rcases allocateDevice_eq_ok h with ⟨rfl, rfl, -, rfl⟩ | ⟨run, hd, ⟨rfl, rfl⟩ | ⟨hc, rfl⟩⟩
  · exact ⟨blank_host rfl, blank_host rfl⟩
  · exact ⟨blank_device hr hd, blank_device hr hd⟩
  · cases context with
    | hostToDevice => exact ⟨blank_host rfl, blank_device hr hd⟩
    | deviceToHost => exact ⟨blank_device hr hd, blank_host rfl⟩
    | hostToHost | deviceToDevice => cases hc

theorem allocate_blank {backend : Backend} {machine : Machine}
    (hr : backend.Ready machine.devices) :
    (backend.allocate context bytes).Ensures machine
      (fun storage after => storage.Blank after.devices context bytes) fun _ _ => True :=
  allocate_ensures (P := fun storage others => storage.Blank others context bytes)
    (fun _ _ hb ha => allocateHost_blank hb ha) fun _ _ _ hd ha => by
      subst hd
      exact allocateDevice_blank hr ha

end Backend

theorem Buffer.allocate_of_zero (h : request.items = 0 ∨ request.itemSize = 0) :
    ∃ error, Buffer.allocate backend request id machine = .error (.error error) machine ∧
      error.kind = .allocationFailed := by
  unfold Buffer.allocate
  rw [Request.geometry_eq]
  by_cases hsize : request.itemSize = 0
  · rw [if_pos hsize]
    exact ⟨_, rfl, rfl⟩
  · rw [if_neg hsize, if_pos (h.resolve_right hsize)]
    exact ⟨_, rfl, rfl⟩

/-- **Exact allocation.** A buffer that is given has the least capacity that covers the items and is
a multiple of the rate, of the multiple of the producer and of the granularity of the consumers. It
is written in the least common multiple of the first two, into and out of regions that hold the
capacity in zeros. For no items, or items of no size, nothing is given; otherwise a buffer is given
whenever its size is a word and the backend has memory for it. -/
theorem allocation_is_exact (hr : backend.Ready machine.devices) :
    (∀ buffer after, Buffer.allocate backend request id machine = .ok buffer after →
      IsLeast {n | request.items ≤ n ∧ max request.producer.relativeRate 1 ∣ n ∧
        max request.producer.outputMultiple 1 ∣ n ∧ max request.downstream 1 ∣ n}
          buffer.geometry.capacity ∧
      buffer.geometry.writeMultiple =
        Nat.lcm (max request.producer.relativeRate 1) (max request.producer.outputMultiple 1) ∧
      buffer.storage.writeRegion.Blank after.devices request.owner.context.writeDomain
        (buffer.geometry.capacity * request.itemSize) ∧
      buffer.storage.readRegion.Blank after.devices request.owner.context.readDomain
        (buffer.geometry.capacity * request.itemSize)) ∧
    (request.items = 0 ∨ request.itemSize = 0 →
      ∃ error, Buffer.allocate backend request id machine = .error (.error error) machine ∧
        error.kind = .allocationFailed) ∧
    ((∃ buffer after, Buffer.allocate backend request id machine = .ok buffer after) ↔
      backend.Serves machine request) := by
  refine ⟨fun buffer after ha => ?_, Buffer.allocate_of_zero, Buffer.allocate_ends.ok_iff⟩
  obtain ⟨hg, ⟨mid, hs, hdevices⟩, -⟩ := Buffer.allocate_eq_ok ha
  have hblank := (Backend.allocate_blank hr).of_ok hs
  obtain ⟨-, -, -, hmeasures⟩ := Request.geometry_eq_ok hg
  rw [hmeasures, ← hdevices] at hblank
  rw [hmeasures]
  have hsuits := request.capacity_suits
  exact ⟨⟨⟨hsuits.items_le, hsuits.rate_dvd, hsuits.multiple_dvd, hsuits.downstream_dvd⟩,
    fun n ⟨hle, hrate, hmultiple, hdown⟩ => Request.capacity_le ⟨hle, hrate, hmultiple, hdown⟩⟩,
    rfl, hblank.writeRegion, hblank.readRegion⟩

def Request.toDevice : Request where
  items := 5
  itemSize := 2
  downstream := 4
  producer := { relativeRate := 3, outputMultiple := 2 }
  owner := { context := .hostToDevice }

theorem allocation_is_exact_to_device :
    ∃ buffer after, Buffer.allocate (.device 0) .toDevice 0
      { devices := [{ name := "emulated" }] } = .ok buffer after ∧
      IsLeast {n | 5 ≤ n ∧ 3 ∣ n ∧ 2 ∣ n ∧ 4 ∣ n} 12 ∧ buffer.geometry.writeMultiple = 6 ∧
      buffer.storage.writeRegion.Blank after.devices .host 24 ∧
      buffer.storage.readRegion.Blank after.devices .device 24 := by
  have hready : (Backend.device 0).Ready [{ name := "emulated" }] := ⟨by decide, nofun, by decide⟩
  have hallocate : ∃ buffer after,
      Buffer.allocate (.device 0) .toDevice 0 { devices := [{ name := "emulated" }] } =
        .ok buffer after ∧ buffer.geometry.capacity = 12 := ⟨_, _, rfl, rfl⟩
  obtain ⟨buffer, after, ha, hcap⟩ := hallocate
  obtain ⟨hleast, hmultiple, hwrite, hread⟩ := (allocation_is_exact hready).1 buffer after ha
  rw [hcap] at hleast hwrite hread
  exact ⟨buffer, after, ha, hleast, hmultiple, hwrite, hread⟩

end StreamBuffer
