import StreamBuffer.Proofs.Acts
import StreamBuffer.Proofs.Safety

/-!
# The region is never left

Whatever callers do, and whatever stops them, all positions stay in the region and the storage stays
backed. So room ends in the region, and what is written into it is refused by a device at most. This
fails in one case: without readers the room is reckoned from the capacity alone, wherever the writer
stands.
-/

namespace StreamBuffer

/-! ## What ends in the region -/

namespace Cursors

variable {cursors : Cursors} {capacity room limit : Nat} {readers : List Reader}

theorem roomBefore_le (h : cursors.roomBefore limit readers = .ok room) : room ≤ limit := by
  induction readers generalizing limit with
  | nil => exact Nat.le_of_eq (Except.ok.inj h).symm
  | cons reader rest ih =>
    unfold roomBefore at h
    split at h
    · have := ih h
      omega
    split at h
    · obtain ⟨unread, _, h⟩ := bind_eq_ok.mp h
      split at h
      · cases h
        omega
      · exact ih h
    · exact ih h

theorem Bounded.flatRoom_le (h : cursors.Bounded capacity)
    (he : cursors.flatRoom capacity = .ok room) :
    cursors.writeIndex + room ≤ capacity := by
  have hw := h.writeIndex_lt
  obtain ⟨limit, hl, he⟩ := bind_eq_ok.mp he
  have := Word.sub_eq_ok_iff.mp hl
  have := roomBefore_le he
  omega

end Cursors

namespace Storage

variable {storage : Storage} {machine : Machine} {size offset length : Nat}

theorem publish_of_skip (h : (storage.isShared || length == 0) = true) :
    storage.publish offset length machine = .ok storage machine := by
  unfold publish
  rw [if_pos h]
  rfl

/-- A transfer from past the end is refused in the name of the domain that is written. -/
theorem Backed.publish_beyond (h : storage.Backed machine.devices size)
    (hc : storage.context.crosses = true) (h0 : 0 < length) (hl : size < offset + length) :
    (storage.publish offset length).Ensures machine (fun _ _ => False) fun stop last =>
      last.devices = machine.devices ∧ stop = .error
        (.rangeExceedsRegion .transferSource offset length storage.context.writeDomain size) := by
  have htransfer : storage.transfer machine.devices offset length = .error (.error
      (.rangeExceedsRegion .transferSource offset length storage.context.writeDomain size)) := by
    cases h with
    | host | device => cases hc
    | toDevice hs hr hrun =>
      unfold transfer sendToDevice Region.checkRange
      simp only [Context.writeDomain, Region.size, Segment.size, Region.domain, hs,
        if_neg (Nat.not_le.mpr hl)]
      rfl
    | toHost hs hr hrun =>
      unfold transfer fetchFromDevice Region.checkRange
      simp only [Context.writeDomain, Region.size, Region.domain, hrun, if_neg (Nat.not_le.mpr hl)]
      rfl
  have hskip : ¬ (storage.isShared || length == 0) = true := by
    rw [h.isShared_eq, hc]
    simpa using Nat.ne_of_gt h0
  unfold publish
  rw [if_neg hskip]
  refine .get_bind ?_
  rw [htransfer]
  exact ⟨rfl, rfl⟩

end Storage

namespace Site

structure Enclosed (geometry : Geometry) (context : Context) (site : Site) :
    Prop extends Solid site where
  geometry_eq : site.buffer.geometry = geometry
  context_eq : site.buffer.storage.context = context
  bounded : site.buffer.cursors.Bounded geometry.capacity

variable {geometry : Geometry} {context : Context} {site after : Site} {α β : Type}

def Confines (geometry : Geometry) (context : Context) (site : Site) (action : Action Site α) :
    Prop :=
  action.Ensures site (fun _ after => after.Enclosed geometry context)
    fun _ after => after.Enclosed geometry context

namespace Enclosed

variable {cursors : Cursors}

theorem turn (h : site.Enclosed geometry context) (ht : site.Turns cursors after)
    (hb : cursors.Bounded geometry.capacity) :
    after.Enclosed geometry context := by
  refine ⟨⟨ht.geometry_eq ▸ h.measured, ?_⟩, ht.geometry_eq.trans h.geometry_eq,
    ht.storage_eq ▸ h.context_eq, ht.cursors_eq ▸ hb⟩
  rw [ht.geometry_eq, ht.storage_eq, ht.devices_eq]
  exact h.backed

theorem same (h : site.Enclosed geometry context) (hs : site.Same after) :
    after.Enclosed geometry context :=
  h.turn hs h.bounded

theorem recast {bytes : Bytes} (h : site.Enclosed geometry context)
    (hr : site.Recasts bytes after) :
    after.Enclosed geometry context :=
  ⟨hr.solid h.toSolid, hr.geometry_eq.trans h.geometry_eq, hr.shows.context_eq.trans h.context_eq,
    hr.cursors_eq ▸ h.bounded⟩

theorem balk {stop : Stop} (h : site.Enclosed geometry context) (hb : site.Balks stop after) :
    after.Enclosed geometry context := by
  obtain ⟨bytes, hr⟩ := hb.recasts
  exact h.recast hr

end Enclosed

theorem reader_spec (site : Site) (id : Nat) : (reader id).Ensures site
    (fun reader after => after = site ∧ site.buffer.cursors.reader? id = some reader)
      fun _ after => after = site := by
  unfold reader
  refine .get_bind ?_
  dsimp only
  cases site.buffer.cursors.reader? id with
  | some reader => exact Action.Ensures.pure ⟨rfl, rfl⟩
  | none => exact (rfl : site = site)

/-! ## Rules -/

section Rules

variable {holds : Site → Prop} {id : Nat}

theorem reader_leaves {next : Reader → Action Site β} (h : holds site)
    (hn : ∀ reader, site.buffer.cursors.reader? id = some reader →
      (next reader).Leaves site holds) :
    (reader id >>= next).Leaves site holds := by
  apply Action.Ensures.bind ((reader_spec site id).mono (fun _ _ hr => hr) fun _ _ he => he ▸ h)
  rintro reader _ ⟨rfl, hr⟩
  exact hn reader hr

theorem supply_leaves {next : Nat → Action Site β} (h : holds site)
    (hn : ∀ reader supply, site.buffer.cursors.reader? id = some reader →
      site.buffer.supply reader = .ok supply → (next supply).Leaves site holds) :
    (supply id >>= next).Leaves site holds := by
  unfold supply
  simp only [bind_assoc]
  exact reader_leaves h
    fun reader hr => .get_bind (.lift_bind h fun supply hs => hn reader supply hr hs)

end Rules

namespace Confines

variable {action : Action Site α} {next : α → Action Site β}

theorem bind (h : site.Confines geometry context action)
    (hn : ∀ a (mid : Site), mid.Enclosed geometry context →
      mid.Confines geometry context (next a)) :
    site.Confines geometry context (action >>= next) := Action.Ensures.bind h hn

theorem pure (h : site.Enclosed geometry context) {a : α} :
    site.Confines geometry context (Pure.pure a : Action Site α) :=
  Action.Leaves.pure h

theorem get_bind {next : Site → Action Site β} (h : site.Confines geometry context (next site)) :
    site.Confines geometry context (get >>= next) := h

theorem modify_bind {change : Site → Site} {next : PUnit → Action Site β}
    (hs : site.Same (change site)) (h : site.Enclosed geometry context)
    (hn : (change site).Enclosed geometry context →
      (change site).Confines geometry context (next ⟨⟩)) :
    site.Confines geometry context (modify change >>= next) := hn (h.same hs)

theorem map (h : site.Confines geometry context action) {f : α → β} :
    site.Confines geometry context (action >>= fun a => Pure.pure (f a)) := Action.Leaves.map h

theorem discard (h : site.Confines geometry context action) :
    site.Confines geometry context (Functor.discard action) := h.map

theorem lift_bind {checked : Checked α} (h : site.Enclosed geometry context)
    (hn : ∀ a, checked = .ok a → site.Confines geometry context (next a)) :
    site.Confines geometry context (liftM checked >>= next) := Action.Leaves.lift_bind h hn

theorem lift {checked : Checked α} (h : site.Enclosed geometry context) :
    site.Confines geometry context (liftM checked : Action Site α) := Action.Leaves.lift h

theorem attempt_bind {attempt : Attempt α} (h : site.Enclosed geometry context)
    (hn : ∀ a, attempt = .ok a → site.Confines geometry context (next a)) :
    site.Confines geometry context (liftM attempt >>= next) := Action.Leaves.attempt_bind h hn

theorem reader_bind {next : Reader → Action Site β} (h : site.Enclosed geometry context) {id : Nat}
    (hn : ∀ reader, site.buffer.cursors.reader? id = some reader →
      site.Confines geometry context (next reader)) :
    site.Confines geometry context (reader id >>= next) := reader_leaves h hn

theorem supply_bind {next : Nat → Action Site β} (h : site.Enclosed geometry context) {id : Nat}
    (hn : ∀ reader supply, site.buffer.cursors.reader? id = some reader →
      site.buffer.supply reader = .ok supply → site.Confines geometry context (next supply)) :
    site.Confines geometry context (supply id >>= next) := supply_leaves h hn

theorem isFlat_bind {next : Bool → Action Site β}
    (h : site.Confines geometry context (next (site.buffer.geometry.mapping == .single))) :
    site.Confines geometry context (isFlat >>= next) := h

theorem turn_bind {cursors : Cursors} {next : PUnit → Action Site β}
    (h : site.Enclosed geometry context) (hb : cursors.Bounded geometry.capacity)
    (hn : ∀ mid : Site, mid.Enclosed geometry context → mid.buffer.cursors = cursors →
      mid.Confines geometry context (next ⟨⟩)) :
    site.Confines geometry context (setCursors cursors >>= next) :=
  Action.Ensures.modify_bind (hn _ (h.turn ⟨rfl, rfl, rfl, rfl⟩ hb) rfl)

end Confines

/-! ## Relocations -/

theorem log_confines (h : site.Enclosed geometry context) (event : Event) :
    site.Confines geometry context (log event) :=
  h.same ⟨rfl, rfl, rfl, rfl⟩

theorem forM_log_confines (h : site.Enclosed geometry context) (events : List Event) :
    site.Confines geometry context (events.forM log) :=
  (forM_log_spec events site).sure fun _ _ hs => h.same hs

theorem moveItems_confines (h : site.Enclosed geometry context) {move : ItemMove}
    (hf : move.Fits geometry.capacity ∨ move.Overhangs geometry.capacity) :
    site.Confines geometry context (moveItems move) := by
  rw [← h.geometry_eq] at hf
  rcases hf with hf | ho
  · exact (moveItems_spec h.toSolid hf).mono (fun _ _ hr => h.recast hr) fun _ _ hb => h.balk hb
  · unfold Confines Action.Ensures
    rw [moveItems_beyond h.toSolid ho]
    exact h

theorem moveAll_confines (h : site.Enclosed geometry context) {moves : List ItemMove}
    (hf : ∀ move ∈ moves, move.Fits geometry.capacity ∨ move.Overhangs geometry.capacity) :
    site.Confines geometry context (moves.forM moveItems) := by
  induction moves generalizing site with
  | nil => exact h
  | cons move rest ih =>
    apply (moveItems_confines h (hf move (List.mem_cons_self ..))).bind
    intro _ mid hm
    exact ih hm fun m hr => hf m (List.mem_cons_of_mem _ hr)

theorem carryOut_confines (h : site.Enclosed geometry context) {plan : Plan} {reach : Nat}
    (hc : plan.Contained site.buffer.cursors geometry.capacity reach) :
    site.Confines geometry context (carryOut plan) := by
  have hmoves := moveAll_confines h fun move hm => (hc.moves h.bounded move hm).imp_right And.right
  unfold carryOut
  refine .get_bind (hmoves.bind fun _ mid hm => .lift_bind hm fun ⟨cursors, event⟩ he => ?_)
  refine .turn_bind hm (hc.settle h.bounded he) fun last hl _ => ?_
  exact .modify_bind ⟨rfl, rfl, rfl, rfl⟩ hl fun hd => log_confines hd event

theorem follow_confines (h : site.Enclosed geometry context) {decision : Decision} {reach : Nat}
    (hd : ∀ plan, decision = .planned plan →
      plan.Contained site.buffer.cursors geometry.capacity reach) :
    site.Confines geometry context (follow decision) := by
  cases decision with
  | idle => exact .pure h
  | blocked event => exact (log_confines h event).map
  | planned plan => exact (carryOut_confines h (hd plan rfl)).map

/-! ## Room -/

theorem prune_confines (h : site.Enclosed geometry context) (time : Nat) :
    site.Confines geometry context (prune time) := by
  unfold prune
  refine .get_bind (.lift_bind h fun tags _ => .modify_bind ⟨rfl, rfl, rfl, rfl⟩ h fun hm => ?_)
  split
  · exact (log_confines hm _).bind fun _ _ hl => .pure hl
  · exact .pure hm

theorem pruneBehindReaders_confines (h : site.Enclosed geometry context) :
    site.Confines geometry context pruneBehindReaders := by
  unfold pruneBehindReaders
  refine .get_bind ?_
  dsimp only
  split
  · exact ((prune_confines h _).discard).bind fun _ mid hm => hm.same ⟨rfl, rfl, rfl, rfl⟩
  · exact .pure h

theorem flatSpace_enclosed (h : site.Enclosed geometry context) :
    flatSpace.Ensures site
      (fun room after => after.Enclosed geometry context ∧
        after.buffer.cursors.writeIndex + room ≤ geometry.capacity)
      fun _ after => after.Enclosed geometry context := by
  -- room is measured last, on the site as it is or once look-back was copied
  have hroom : ∀ mid : Site, mid.Enclosed geometry context →
      (get >>= fun site : Site => liftM (site.buffer.cursors.flatRoom geometry.capacity) :
        Action Site Nat).Ensures
        mid (fun room after => after.Enclosed geometry context ∧
          after.buffer.cursors.writeIndex + room ≤ geometry.capacity)
        fun _ after => after.Enclosed geometry context := by
    intro mid hm
    refine .get_bind ?_
    cases he : mid.buffer.cursors.flatRoom geometry.capacity with
    | ok room => exact ⟨hm, hm.bounded.flatRoom_le he⟩
    | error fault => exact hm
  unfold flatSpace
  refine .get_bind ?_
  dsimp only
  rw [h.geometry_eq]
  cases site.buffer.cursors.needsHistory geometry with
  | error fault => exact h
  | ok needed =>
    cases needed with
    | false => exact hroom site h
    | true =>
      cases he : site.buffer.cursors.planHistory geometry with
      | error fault => exact h
      | ok decision =>
        have hfollow : site.Confines geometry context (follow decision) := by
          apply follow_confines h
          rintro plan rfl
          exact h.bounded.planHistory he
        apply Action.Ensures.bind hfollow
        intro moved mid hm
        cases moved with
        | false => exact ⟨hm, Nat.le_of_lt hm.bounded.writeIndex_lt⟩
        | true => exact hroom mid hm

theorem space_enclosed (h : site.Enclosed geometry context) :
    space.Ensures site
      (fun room after => after.Enclosed geometry context ∧
        (site.buffer.cursors.readers = [] → room = geometry.capacity - 1 ∧ after = site) ∧
        (site.buffer.cursors.readers ≠ [] → geometry.mapping = .single →
          after.buffer.cursors.writeIndex + room ≤ geometry.capacity))
      fun _ after => after.Enclosed geometry context := by
  unfold space
  refine .get_bind ?_
  dsimp only
  rw [h.geometry_eq]
  by_cases hr : site.buffer.cursors.readers = []
  · rw [if_pos (by simpa using hr), Word.sub_eq_ok (Nat.zero_lt_of_lt h.bounded.writeIndex_lt)]
    exact ⟨h, fun _ => ⟨rfl, rfl⟩, fun hn => absurd hr hn⟩
  · rw [if_neg (by simpa using hr)]
    apply Action.Ensures.bind (pruneBehindReaders_confines h)
    intro _ mid hm
    cases geometry.mapping with
    | single =>
      apply (flatSpace_enclosed hm).mono
      · intro room after ⟨ha, hroom⟩
        exact ⟨ha, fun hn => absurd hn hr, fun _ _ => hroom⟩
      · exact fun _ _ ha => ha
    | double =>
      cases site.buffer.cursors.ringRoom geometry.capacity with
      | ok room => exact ⟨hm, fun hn => absurd hn hr, nofun⟩
      | error fault => exact hm

theorem space_confines (h : site.Enclosed geometry context) :
    site.Confines geometry context space :=
  (space_enclosed h).mono (fun _ _ ha => ha.1) fun _ _ ha => ha

/-! ## Production -/

theorem store_confines (h : site.Enclosed geometry context) {data : Bytes}
    (hd : site.buffer.writeOffset + data.size ≤ geometry.bytes) :
    site.Confines geometry context (store data) := by
  rw [← h.geometry_eq] at hd
  exact (store_spec h.toSolid hd).sure fun _ _ hr => h.recast hr.1

theorem publish_confines (h : site.Enclosed geometry context) (offset length : Nat) :
    site.Confines geometry context
      (onMachine (site.buffer.storage.publish offset length) >>= fun storage =>
      modifyBuffer ({ · with storage })) := by
  have hb := h.backed
  by_cases hl : offset + length ≤ site.buffer.geometry.bytes
  · apply Action.Ensures.bind ((onMachine_spec (hb.published hl)).mono (fun _ _ hd => hd) ?_)
    · rintro storage _ ⟨machine, hs, rfl⟩
      exact h.recast ⟨rfl, hs⟩
    · rintro stop _ ⟨machine, ⟨hd, _⟩, rfl⟩
      exact h.same ⟨rfl, rfl, rfl, hd⟩
  by_cases hskip : (site.buffer.storage.isShared || length == 0) = true
  · apply Action.Ensures.ok_bind (t := site) (a := site.buffer.storage)
    · unfold onMachine
      rw [Storage.publish_of_skip hskip]
    · exact h.same ⟨rfl, rfl, rfl, rfl⟩
  · rw [hb.isShared_eq] at hskip
    have hcrosses : site.buffer.storage.context.crosses = true ∧ 0 < length := by
      simp only [Bool.or_eq_true, Bool.not_eq_true', beq_iff_eq, not_or, Bool.not_eq_false] at hskip
      exact ⟨hskip.1, Nat.pos_of_ne_zero hskip.2⟩
    apply Action.Ensures.bind
      ((onMachine_spec (hb.publish_beyond hcrosses.1 hcrosses.2 (by omega))).mono
      (fun _ _ hd => hd) ?_)
    · rintro storage _ ⟨_, hf, _⟩
      exact hf.elim
    · rintro stop _ ⟨machine, ⟨hd, _⟩, rfl⟩
      exact h.same ⟨rfl, rfl, rfl, hd⟩

theorem post_confines (h : site.Enclosed geometry context) (items : Nat) :
    site.Confines geometry context (post items) := by
  unfold post
  exact .get_bind
    (.lift_bind h fun offset _ => .lift_bind h fun length _ => publish_confines h offset length)

theorem advance_confines (h : site.Enclosed geometry context) (items : Nat) :
    site.Confines geometry context (advance items) := by
  unfold advance
  refine .get_bind (.lift_bind h ?_)
  intro ⟨cursors, event⟩ he
  rw [h.geometry_eq] at he
  exact .turn_bind h (h.bounded.advanceWriter he) fun last hl _ => hl.same ⟨rfl, rfl, rfl, rfl⟩

theorem write_confines (h : site.Enclosed geometry context) (items : Nat) (source : Nat → UInt8) :
    site.Confines geometry context (write items source) := by
  unfold write
  refine .get_bind ?_
  dsimp only
  rw [h.geometry_eq]
  have hlt := h.bounded.writeIndex_lt
  generalize hf : min items (geometry.capacity - site.buffer.cursors.writeIndex) = fitting
  have hd := Nat.mul_le_mul_right geometry.itemSize
    (show site.buffer.cursors.writeIndex + fitting ≤ geometry.capacity by omega)
  have hstore : site.Confines geometry context
      (store (produced geometry.itemSize fitting source)) := by
    apply store_confines h
    rw [Nat.add_mul] at hd
    rw [size_produced, Buffer.writeOffset, h.geometry_eq]
    exact hd
  apply hstore.bind
  intro _ mid hm
  exact (post_confines hm items).bind fun _ last hl => advance_confines hl items

theorem produce_confines (h : site.Enclosed geometry context) (items multiple : Nat)
    (source : Nat → UInt8) :
    site.Confines geometry context (produce items multiple source) := by
  unfold produce
  exact (space_confines h).bind fun _ _ hm => (write_confines hm _ source).bind
    fun _ _ hl => .pure hl

/-! ## Readers -/

theorem attach_confines (h : site.Enclosed geometry context) (history delay : Nat) :
    site.Confines geometry context (attach history delay) := by
  unfold attach
  refine .get_bind (.attempt_bind h ?_)
  intro ⟨id, cursors, events⟩ he
  rw [h.geometry_eq] at he
  exact .turn_bind h (h.bounded.attach he) fun last hl _ => (forM_log_confines hl events).map

theorem raiseHistory_confines (h : site.Enclosed geometry context) (history delay : Nat) :
    site.Confines geometry context (raiseHistory history delay) := by
  unfold raiseHistory
  refine .get_bind (.attempt_bind h ?_)
  intro _ hcheck
  refine .lift_bind h ?_
  intro ⟨cursors, events⟩ he
  rw [h.geometry_eq] at he hcheck
  have hlt := h.bounded.writeIndex_lt
  have hle := Cursors.le_of_checkHistory hcheck
  exact .turn_bind h (h.bounded.raise (by omega) he) fun last hl _ => forM_log_confines hl events

theorem detach_confines (h : site.Enclosed geometry context) (id : Nat) :
    site.Confines geometry context (detach id) := by
  unfold detach
  have hreader : site.Confines geometry context (Functor.discard (reader id)) :=
    .reader_bind h fun _ _ => .pure h
  apply hreader.bind
  intro _ mid hm
  refine .get_bind (.lift_bind hm ?_)
  intro ⟨cursors, event⟩ he
  exact .turn_bind hm (hm.bounded.detach he) fun last hl _ => log_confines hl event

theorem read_confines (h : site.Enclosed geometry context) (id items : Nat) :
    site.Confines geometry context (read id items) := by
  unfold read
  apply Confines.reader_bind h
  intro reader hr
  refine .get_bind (.lift_bind h ?_)
  intro ⟨cursors, event⟩ he
  rw [h.geometry_eq] at he
  refine .turn_bind h (h.bounded.advanceReader he) fun mid hm hc => ?_
  refine .modify_bind ⟨rfl, rfl, rfl, rfl⟩ hm fun hl => .lift_bind hl fun refreshed hf => ?_
  exact hl.turn ⟨rfl, rfl, rfl, rfl⟩ ((hc ▸ hm.bounded).refreshTail hf)

theorem declareDelay_confines (h : site.Enclosed geometry context) (id delay : Nat) :
    site.Confines geometry context (declareDelay id delay) := by
  unfold declareDelay
  apply Confines.reader_bind h
  intro reader hr
  refine .get_bind (.lift_bind h ?_)
  intro ⟨cursors, events⟩ he
  rw [h.geometry_eq] at he
  have hb := h.bounded.declareDelay (Cursors.mem_of_reader? hr).1 he
  exact .turn_bind h hb fun last hl _ => forM_log_confines hl events

theorem tags_confines (h : site.Enclosed geometry context) (id start stop consumer : Nat) :
    site.Confines geometry context (tags id start stop consumer) := by
  unfold tags
  exact .reader_bind h fun _ _ => .get_bind (.lift h)

/-! ## Blocked stages -/

theorem isInputBlockedAt_confines (h : site.Enclosed geometry context) (required readIndex : Nat) :
    site.Confines geometry context (isInputBlockedAt required readIndex) := by
  unfold isInputBlockedAt
  exact .get_bind (.isFlat_bind (.pure h))

theorem isInputBlocked_confines (h : site.Enclosed geometry context) (id required : Nat) :
    site.Confines geometry context (isInputBlocked id required) := by
  unfold isInputBlocked
  apply Confines.isFlat_bind
  split
  · exact .reader_bind h fun reader _ => isInputBlockedAt_confines h required reader.readIndex
  · exact .pure h

theorem isOutputBlocked_confines (h : site.Enclosed geometry context) (multiple : Nat) :
    site.Confines geometry context (isOutputBlocked multiple) := by
  unfold isOutputBlocked
  apply Confines.isFlat_bind
  split
  · exact (space_confines h).map
  · exact .pure h

theorem unblockInputAt_confines (h : site.Enclosed geometry context)
    (required available readIndex : Nat) :
    site.Confines geometry context (unblockInputAt required available readIndex) := by
  unfold unblockInputAt
  apply Confines.isFlat_bind
  split
  · refine .get_bind (.lift_bind h fun decision hd => ?_)
    apply follow_confines h
    rintro plan rfl
    exact h.bounded.planInput hd
  · exact .pure h

theorem unblockInput_confines (h : site.Enclosed geometry context) (id required : Nat) :
    site.Confines geometry context (unblockInput id required) := by
  unfold unblockInput
  apply Confines.isFlat_bind
  split
  · exact .reader_bind h fun reader _ => .supply_bind h fun _ supply _ _ =>
      unblockInputAt_confines h required supply reader.readIndex
  · exact .pure h

theorem unblockOutput_confines (h : site.Enclosed geometry context) (multiple : Nat)
    (force : Bool) :
    site.Confines geometry context (unblockOutput multiple force) := by
  unfold unblockOutput
  apply Confines.isFlat_bind
  split
  · refine .get_bind (.lift_bind h fun decision hd => ?_)
    apply follow_confines h
    rintro plan rfl
    rw [h.geometry_eq] at hd
    exact Cursors.contained_of_planOutput hd
  · exact .pure h

end Site

/-! ## Acts -/

variable {geometry : Geometry} {context : Context} {site start : Site} {granted : Nat}

theorem Call.confines (h : site.Enclosed geometry context) (call : Call) :
    site.Confines geometry context call.perform := by
  cases call with
  | space => exact (Site.space_confines h).map
  | advance items =>
    exact (Site.space_confines h).bind fun _ _ hm => (Site.advance_confines hm _).map
  | produce items multiple source => exact (Site.produce_confines h items multiple source).map
  | write items source => exact (Site.write_confines h items source).map
  | attach history delay => exact (Site.attach_confines h history delay).map
  | raiseHistory history delay => exact (Site.raiseHistory_confines h history delay).map
  | detach id => exact (Site.detach_confines h id).map
  | read id items => exact (Site.read_confines h id items).map
  | supply id => exact .supply_bind h fun _ _ _ _ => .pure h
  | declareDelay id delay => exact (Site.declareDelay_confines h id delay).map
  | unblockInput id required => exact (Site.unblockInput_confines h id required).map
  | unblockInputAt required available readIndex =>
    exact (Site.unblockInputAt_confines h required available readIndex).map
  | unblockOutput multiple force => exact (Site.unblockOutput_confines h multiple force).map
  | isInputBlocked id required => exact (Site.isInputBlocked_confines h id required).map
  | isInputBlockedAt required readIndex =>
    exact (Site.isInputBlockedAt_confines h required readIndex).map
  | isOutputBlocked multiple => exact (Site.isOutputBlocked_confines h multiple).map
  | prune time => exact (Site.prune_confines h time).map
  | tags id start stop consumer => exact (Site.tags_confines h id start stop consumer).map
  | tag new => exact h.same ⟨rfl, rfl, rfl, rfl⟩
  | untag old consumer => exact h.same ⟨rfl, rfl, rfl, rfl⟩
  | setDone done => exact h.same ⟨rfl, rfl, rfl, rfl⟩

namespace Devices

variable {devices : Devices} {number other : Nat} {faulty : Bool}

theorem allocations_setFaulty :
    ((devices.setFaulty number faulty).get other).allocations =
      (devices.get other).allocations := by
  unfold setFaulty
  by_cases hn : number = other
  · subst hn
    by_cases hl : number < devices.length
    · rw [get_set hl]
    · rw [List.set_eq_of_length_le (by omega)]
  · rw [get_set_ne hn]

theorem length_setFaulty : (devices.setFaulty number faulty).length = devices.length :=
  List.length_set

end Devices

/-- Whether a device fails is no matter of its memory. -/
theorem Storage.Backed.setFaulty {storage : Storage} {devices : Devices} {size : Nat}
    (h : storage.Backed devices size) (number : Nat) (faulty : Bool) :
    storage.Backed (devices.setFaulty number faulty) size ∧
      storage.readable (devices.setFaulty number faulty) = storage.readable devices := by
  have hlive : ∀ run : DeviceRun, run.Live devices → run.Live (devices.setFaulty number faulty) :=
    fun run hr =>
    hr.of_allocations Devices.length_setFaulty Devices.allocations_setFaulty
  have hbytes : ∀ run : DeviceRun, run.bytes (devices.setFaulty number faulty) =
      run.bytes devices := by
    intro run
    unfold DeviceRun.bytes Device.read
    rw [Devices.allocations_setFaulty]
  cases h with
  | host hs => exact ⟨.host hs, rfl⟩
  | device hr hl => exact ⟨.device (hlive _ hr) hl, hbytes _⟩
  | toDevice hs hr hl => exact ⟨.toDevice hs (hlive _ hr) hl, hbytes _⟩
  | toHost hs hr hl => exact ⟨.toHost hs (hlive _ hr) hl, rfl⟩

namespace Site.Enclosed

theorem after (h : site.Enclosed geometry context) {act : Act} (ha : act.InRegion site) :
    (act.after site).Enclosed geometry context := by
  apply Act.after_of
  cases act with
  | call call => exact call.confines h
  | store data =>
    have hd : site.buffer.writeOffset + data.size ≤ geometry.bytes := h.geometry_eq ▸ ha
    exact (store_confines h hd).map
  | post items => exact (post_confines h items).map
  | move items => exact (advance_confines h items).map
  | fault device on =>
    exact ⟨⟨h.measured, (h.backed.setFaulty device on).1⟩, h.geometry_eq, h.context_eq, h.bounded⟩

theorem play (h : start.Enclosed geometry context)
    (hplay : Play (fun _ site act => act.InRegion site) start granted site) :
    site.Enclosed geometry context := by
  induction hplay with
  | refl => exact h
  | tail act _ ha ih => exact ih.after ha

end Site.Enclosed

theorem Backend.Delivers.enclosed {backend : Backend} {request : Request} {id : Nat}
    {devices : Devices} {buffer : Buffer} {machine : Machine}
    (h : backend.Delivers request id devices buffer machine) :
    Site.Enclosed buffer.geometry request.owner.context ⟨machine, buffer⟩ := by
  have hpos := h.gives.capacity_pos
  refine ⟨h.solid, rfl, h.provides.context_eq, ?_⟩
  change buffer.cursors.Bounded buffer.geometry.capacity
  rw [h.cursors_eq]
  exact ⟨hpos, nofun, hpos, nofun⟩

/-- What would be transferred from past the end is refused. -/
theorem Site.post_beyond (h : site.Solid) {items : Nat}
    (hc : site.buffer.storage.context.crosses = true)
    (hw : site.buffer.cursors.writeIndex ≤ site.buffer.geometry.capacity)
    (hi : items ≤ site.buffer.geometry.capacity)
    (hb : site.buffer.geometry.capacity < site.buffer.cursors.writeIndex + items) :
    (post items).Ensures site (fun _ _ => False) fun stop _ => stop =
      .error (.rangeExceedsRegion .transferSource
      site.buffer.writeOffset
        (items * site.buffer.geometry.itemSize) site.buffer.storage.context.writeDomain
      site.buffer.geometry.bytes) := by
  have hlt := h.measured.bytes_lt
  have hpos := h.measured.itemSize_pos
  have hbeyond := Nat.mul_lt_mul_of_pos_right hb hpos
  have hlength := Nat.mul_le_mul_right site.buffer.geometry.itemSize hi
  have hoffset := Nat.mul_le_mul_right site.buffer.geometry.itemSize hw
  have hitems : 0 < items * site.buffer.geometry.itemSize := Nat.mul_pos (by omega) hpos
  rw [Nat.add_mul] at hbeyond
  unfold Geometry.bytes at hlt
  unfold post
  refine .get_bind
    (.lift_bind (Word.mul_eq_ok (by omega)) (.lift_bind (Word.mul_eq_ok (by omega)) ?_))
  apply Action.Ensures.bind
    ((onMachine_spec (h.backed.publish_beyond hc hitems hbeyond)).mono (fun _ _ hd => hd) ?_)
  · rintro storage _ ⟨_, hf, _⟩
    exact hf.elim
  · rintro stop _ ⟨_, ⟨_, he⟩, _⟩
    exact he

variable {backend : Backend} {request : Request} {id : Nat} {machine allocated : Machine}
variable {buffer : Buffer}
variable {room : Nat} {after : Site}

/-- **Room.** Whatever was done to the buffer before, the room ends in the region if a reader is
attached, and without one as long as the writer stands on one of the first two positions. What lies
in the region is published unless a device refuses; a transfer of what does not is refused. -/
theorem room_ends_in_region (hr : backend.Ready machine.devices) (hflat : request.mapping = .single)
    (ha : Buffer.allocate backend request id machine = .ok buffer allocated)
    (hplay : Play (fun _ site act => act.InRegion site) ⟨allocated, buffer⟩ granted site)
    (hs : Site.space site = .ok room after) :
    (after.buffer.cursors.writeIndex + room ≤ buffer.geometry.capacity ↔
      site.buffer.cursors.readers ≠ [] ∨ site.buffer.cursors.writeIndex ≤ 1) ∧
    ∀ items ≤ room,
      (after.buffer.cursors.writeIndex + items ≤ buffer.geometry.capacity → ∀ stop last,
        Site.post items after = .error stop last →
        after.buffer.storage.Refuses after.machine.devices stop) ∧
      (buffer.geometry.capacity < after.buffer.cursors.writeIndex + items →
        after.buffer.storage.context.crosses = true → ∃ last, Site.post items after =
          .error (.error (.rangeExceedsRegion .transferSource after.buffer.writeOffset
            (items * buffer.geometry.itemSize) after.buffer.storage.context.writeDomain
              buffer.geometry.bytes)) last) := by
  -- without readers all of the capacity but one is offered, wherever the writer is
  have hdelivers := Buffer.allocate_delivers hr ha
  have h := hdelivers.enclosed.play hplay
  obtain ⟨hafter, hnone, hsome⟩ := (Site.space_enclosed h).of_ok hs
  have hpos := hafter.bounded.writeIndex_lt
  have hsingle : buffer.geometry.mapping = .single := hdelivers.gives.mapping_eq.trans hflat
  have hgeometry := hafter.geometry_eq
  refine ⟨?_, fun items hi => ⟨?_, ?_⟩⟩
  · by_cases hreaders : site.buffer.cursors.readers = []
    · obtain ⟨rfl, rfl⟩ := hnone hreaders
      simp only [hreaders, ne_eq, not_true_eq_false, false_or]
      omega
    · simp only [hreaders, ne_eq, not_false_eq_true, true_or, iff_true]
      exact hsome hreaders hsingle
  · intro hfits stop last he
    rw [← hgeometry] at hfits
    exact ((Site.post_spec hafter.toSolid items hfits).of_error he).refuses
  · intro hbeyond hcrosses
    have hcapacity : items ≤ buffer.geometry.capacity := by
      by_cases hreaders : site.buffer.cursors.readers = []
      · have := (hnone hreaders).1
        omega
      · have := hsome hreaders hsingle
        omega
    rw [← hgeometry] at hbeyond hcapacity hpos ⊢
    obtain ⟨stop, last, he, rfl⟩ :=
      (Site.post_beyond hafter.toSolid hcrosses (Nat.le_of_lt hpos) hcapacity hbeyond).stops
    exact ⟨last, he⟩

/-- On the heap: a reader came, and the writer moved on by three of four. -/
theorem room_ends_in_region_heap :
    ∃ site after, Play (fun _ site act => act.InRegion site) (Site.onHeap 4 1) 0 site ∧
      Site.space site = .ok 1 after ∧ after.buffer.cursors.writeIndex + 1 ≤ 4 := by
  have hready : Backend.Ready .heap ({} : Machine).devices := trivial
  have hallocate := Buffer.allocate_onHeap 4 1 1 (by decide)
  have hstart : Play (fun _ site act => act.InRegion site) (Site.onHeap 4 1) 0 _ := .refl
  have hattached := hstart.tail (.call (.attach 1 0)) trivial
  have hplay := hattached.tail (.move 3) trivial
  have hroom := room_ends_in_region hready rfl hallocate hplay rfl
  exact ⟨_, _, hplay, rfl, hroom.1.mpr (.inl (by decide))⟩

/-- Without readers a producer who keeps to its room is sent past the end. -/
theorem room_overruns_region :
    Buffer.allocate .heap { items := 16, itemSize := 1 } 0 {} =
        .ok (Site.onHeap 16 1).buffer (Site.onHeap 16 1).machine ∧
      ∃ granted site room after, Play (Act.Respects .early) (Site.onHeap 16 1) granted site ∧
        Site.space site = .ok room after ∧ 16 < after.buffer.cursors.writeIndex + room := by
  have hstart : Play (Act.Respects .early) (Site.onHeap 16 1) 0 _ := .refl
  have hgranted := hstart.tail (.call .space) trivial
  have hmoved := hgranted.tail (.move 15) ⟨.inr ⟨rfl, by decide⟩, by decide⟩
  exact ⟨rfl, _, _, 15, _, hmoved, rfl, by decide⟩

end StreamBuffer
