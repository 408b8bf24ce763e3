import StreamBuffer.Proofs.Allocation

/-!
# Safety of calls

A caller who keeps to the terms is never let down: no computation leaves the words, no cursor
leaves the region, no range is refused. What stops a call is the device of the storage, if it has
one; on the host every call finishes.
-/

namespace StreamBuffer

variable {site start after : Site} {terms : Terms} {call : Call} {sent : Sent}

/-! ## One call -/

theorem Site.Moves.forget {data : Sent} (h : site.Moves terms data after) :
    site.Moves terms none after := by
  refine ⟨h.toKeeps, ?_⟩
  rw [← Sent.andThen_none data]
  exact h.path.tail (.spoil rfl)

/-- What a call does, and what it is said to send. -/
theorem Call.moves (hp : terms.Places) (h : site.Sound) (hr : call.Respects terms site) :
    site.Moves terms (call.sent site) (call.after site) := by
  have hspec := call.perform_spec hp h hr
  unfold Site.Takes Action.Ensures at hspec
  unfold Call.sent Call.after
  cases he : call.perform site with
  | ok answer after =>
    rw [he] at hspec
    obtain ⟨sent, hm, rfl⟩ := hspec
    exact hm
  | error stop after =>
    rw [he] at hspec
    obtain ⟨sent, hm⟩ := hspec.moves
    exact hm.forget

theorem Call.refused {stop : Stop} (hp : terms.Places) (h : site.Sound)
    (hr : call.Respects terms site) (he : call.perform site = .error stop after) :
    site.buffer.storage.Refuses site.machine.devices stop := by
  have hspec := call.perform_spec hp h hr
  unfold Site.Takes Action.Ensures at hspec
  rw [he] at hspec
  exact Site.Stopped.refuses hspec

theorem Call.answers (hp : terms.Places) (h : site.Sound)
    (hc : site.buffer.storage.context = .hostToHost) (hr : call.Respects terms site) :
    ∃ answer after, call.perform site = .ok answer after := by
  obtain ⟨answer, after, he, _⟩ := (call.perform_spec hp h hr).answers h hc
  exact ⟨answer, after, he⟩

/-! ## Runs -/

theorem Run.mono {allows permits : Site → Call → Prop}
    (h : ∀ site call, allows site call → permits site call) (hr : Run allows start sent site) :
    Run permits start sent site := by
  induction hr with
  | refl => exact .refl
  | tail call _ hc ih => exact ih.tail call (h _ _ hc)

theorem Run.moves (hp : terms.Places) (h : start.Sound)
    (hr : Run (Call.Respects terms) start sent site) :
    start.Moves terms sent site := by
  induction hr with
  | refl => exact h.moves
  | tail call _ hc ih => exact ih.trans (call.moves hp (ih.sound h) hc)

theorem Run.sound (hp : terms.Places) (h : start.Sound)
    (hr : Run (Call.Respects terms) start sent site) :
    site.Sound := (hr.moves hp h).sound h

theorem Storage.Refuses.error_kind {storage : Storage} {devices : Devices} {stop : Stop}
    (h : storage.Refuses devices stop) :
    ∃ error, stop = .error error ∧ (error.kind = .transferFailed ∨ error.kind = .unsupported) := by
  obtain ⟨number, _, hr⟩ := h
  cases hr with
  | faulty transfer _ => exact ⟨_, rfl, .inl rfl⟩
  | immovable length _ => exact ⟨_, rfl, .inr rfl⟩

variable {backend : Backend} {request : Request} {id : Nat} {machine allocated : Machine}
variable {buffer : Buffer}

/-- **Safety.** With all readers attached before the first movement, no call of a run breaks off
and none is refused as a mistake; on the host none is refused at all. -/
theorem calls_never_fail (hr : backend.Ready machine.devices) (hflat : request.mapping = .single)
    (ha : Buffer.allocate backend request id machine = .ok buffer allocated)
    (hrun : Run (Call.Respects .early) ⟨allocated, buffer⟩ sent site) :
    site.buffer.cursors.writeIndex < buffer.geometry.capacity ∧
    (∀ reader ∈ site.buffer.cursors.readers, reader.readIndex < buffer.geometry.capacity) ∧
    ∀ call : Call, call.Respects .early site →
      (∀ fault after, call.perform site ≠ .error (.fault fault) after) ∧
      (∀ error after, call.perform site = .error (.error error) after →
        error.kind = .transferFailed ∨ error.kind = .unsupported) ∧
      (request.owner.context = .hostToHost →
        ∃ answer after, call.perform site = .ok answer after) := by
  obtain ⟨hsound, _, hprovides⟩ := Buffer.allocate_sound hr hflat ha
  have hmoves := hrun.moves Terms.early_places hsound
  have h := hmoves.sound hsound
  have hg : site.buffer.geometry = buffer.geometry := hmoves.geometry_eq
  refine ⟨hg ▸ h.coherent.writeIndex_lt, fun reader hm => ?_, fun call hc => ?_⟩
  · have := h.coherent.readIndex_lt hm
    have := h.coherent.ring
    rw [← hg]
    omega
  -- a stop is a refusal of a device, and a refusal is no fault
  refine ⟨fun fault stopped heq => ?_, fun error stopped heq => ?_, fun hctx => ?_⟩
  · obtain ⟨error, he, _⟩ := (call.refused Terms.early_places h hc heq).error_kind
    cases he
  · obtain ⟨refusal, he, hkind⟩ := (call.refused Terms.early_places h hc heq).error_kind
    cases he
    exact hkind
  · exact call.answers Terms.early_places h
      (hmoves.context_eq.trans (hprovides.context_eq.trans hctx)) hc

/-- Of a run on the heap: a reader comes, three items are written, one is consumed. -/
theorem calls_never_fail_heap :
    ∃ sent site, Run (Call.Respects .early) (Site.onHeap 4 1) sent site ∧
    site.buffer.cursors.written = 3 ∧
      ∃ answer after, (Call.unblockOutput 1 true).perform site = .ok answer after := by
  have hstart : Run (Call.Respects .early) (Site.onHeap 4 1) .nothing _ := .refl
  have hattached := hstart.tail (.attach 2 0) ⟨by decide, by decide, rfl, nofun⟩
  have hwritten := hattached.tail (.produce 3 1 fun _ => 7) ⟨by decide, by decide⟩
  have hrun := hwritten.tail (.read 0 1) ⟨_, 4, rfl, rfl, by decide⟩
  have hready : Backend.Ready .heap ({} : Machine).devices := trivial
  have hallocate := Buffer.allocate_onHeap 4 1 1 (by decide)
  have hsafe := calls_never_fail hready rfl hallocate hrun
  exact ⟨_, _, hrun, rfl, (hsafe.2.2 (.unblockOutput 1 true) trivial).2.2 rfl⟩

end StreamBuffer
