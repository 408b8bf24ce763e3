import Mathlib
import StreamBuffer.Proofs.Enclosure
import StreamBuffer.Proofs.Transparency

/-!
# Refused calls can be repeated

A call that a device refuses leaves the buffer as it was, but for tags that nobody can see any more.
Most calls ask the device once, before they change anything. What comes to the front for input is
asked for twice; but a device that has moved some bytes does not refuse to copy others.

Devices break and are repaired between acts. Within one act a device stays as it is: a fault switch
that somebody else throws between the two transfers of one `unblockInput` is not described.
-/

namespace StreamBuffer

namespace Storage

variable {storage : Storage} {devices others : Devices} {run : DeviceRun} {region : Region}
variable {size target source length : Nat}

theorem device_moveWithin_willing (h : run.Live devices) (hs : source + length ≤ run.length)
    (ht : target + length ≤ run.length) (hl : 0 < length) (hne : target ≠ source)
    (he : (Region.device run).moveWithin devices target source length = .ok (region, others)) :
    (devices.get run.device).faulty = false ∧ (devices.get run.device).supportsMove = true := by
  have haddr := h.addressed
  unfold Region.moveWithin Region.checkRange at he
  simp only [Region.size, hs, ht, if_true, if_neg (show ¬ (length = 0 ∨ target = source) by omega),
    Word.add_eq_ok (show run.address + target < Word.limit by omega),
    Word.add_eq_ok (show run.address + source < Word.limit by omega)] at he
  change ((devices.get run.device).move (run.address + target) (run.address + source) length >>=
    _) = _ at he
  rw [h.move_eq ht hs] at he
  by_cases hm : (devices.get run.device).supportsMove = false
  · rw [if_pos hm] at he
    cases he
  rw [if_neg hm] at he
  by_cases hf : (devices.get run.device).faulty = true
  · rw [if_pos hf] at he
    cases he
  · exact ⟨by simpa using hf, by simpa using hm⟩

namespace Backed

theorem withRegion_readRegion (h : storage.Backed devices size) :
    storage.withRegion storage.context.readDomain storage.readRegion = storage := by
  cases h <;> rfl

/-- Where bytes were moved, others can be copied. -/
theorem copies_of_moved (h : storage.Backed devices size) (hlimit : size < Word.limit)
    (hs : source + length ≤ size) (ht : target + length ≤ size) (hl : 0 < length)
    (hne : target ≠ source)
    (he : storage.readRegion.moveWithin devices target source length = .ok (region, others))
    {place origin count : Nat} (ho : origin + count ≤ size) (hp : place + count ≤ origin) :
    ∃ result, (storage.withRegion storage.context.readDomain region).readRegion.copyWithin others
      place origin count = .ok result := by
  have onHost : ∀ segment : Segment, segment.bytes.size = size →
      (Region.host segment).moveWithin devices target source length = .ok (region, others) →
      ∃ moved : Segment, region = .host moved ∧
        ∃ result, (Region.host moved).copyWithin others place origin count = .ok result := by
    intro segment hsize hm
    rw [host_moveWithin (by omega) (by omega)] at hm
    cases hm
    have hspliced : (segment.bytes.splice target (segment.bytes.slice source length)).size =
        size := by
      rw [Bytes.size_splice (by rw [Bytes.size_slice (by omega)]; omega), hsize]
    exact ⟨_, rfl, _, host_copyWithin (by simp only; omega) (by simp only; omega)
      (by simp only; omega) hp⟩
  have onDevice : ∀ run : DeviceRun, run.Live devices → run.length = size →
      (Region.device run).moveWithin devices target source length = .ok (region, others) →
      region = .device run ∧ ∃ result, (Region.device run).copyWithin others place origin count =
        .ok result := by
    intro run hr hrun hm
    -- a device that moved is able to move and not broken, and moving changed neither
    obtain ⟨hfaulty, hmoves⟩ := device_moveWithin_willing hr (by omega) (by omega) hl hne hm
    rcases device_moveWithin hr (show source + length ≤ run.length by omega)
      (show target + length ≤ run.length by omega) with ⟨last, hlast, hlive, hakin, _⟩ |
      ⟨stop, hstop, _⟩
    · cases hlast.symm.trans hm
      refine ⟨rfl, ?_⟩
      rcases device_copyWithin hlive (show origin + count ≤ run.length by omega)
        (show place + count ≤ run.length by omega) hp with ⟨final, hfinal, _⟩ | ⟨stop, _, hrefuses⟩
      · exact ⟨_, hfinal⟩
      · cases hrefuses with
        | faulty transfer hf =>
          rw [hakin.faulty_eq, hfaulty] at hf
          cases hf
        | immovable length hi =>
          rw [hakin.moves_eq, hmoves] at hi
          cases hi
    · cases hstop.symm.trans hm
  cases h with
  | host hsize =>
    obtain ⟨moved, rfl, hcopy⟩ := onHost _ hsize he
    exact hcopy
  | device hr hrun =>
    obtain ⟨rfl, hcopy⟩ := onDevice _ hr hrun he
    exact hcopy
  | toDevice hsize hr hrun =>
    obtain ⟨rfl, hcopy⟩ := onDevice _ hr hrun he
    exact hcopy
  | toHost hsize hr hrun =>
    obtain ⟨moved, rfl, hcopy⟩ := onHost _ hsize he
    exact hcopy

end Backed

end Storage

namespace Site

variable {geometry : Geometry} {context : Context} {site : Site} {α : Type}

def Untouched (site : Site) (stop : Stop) (after : Site) : Prop :=
  ∀ error, stop = .error error → after = site

theorem untouched_fault (site after : Site) (fault : Fault) : site.Untouched (.fault fault) after :=
  nofun

/-! ## Relocations -/

def wish (site : Site) (move : ItemMove) : Attempt (Region × Devices) :=
  let region := site.buffer.storage.readRegion
  let size := site.buffer.geometry.itemSize
  if move.overlapping then
    region.moveWithin site.machine.devices (move.target * size) (move.source * size)
      (move.count * size)
  else region.copyWithin site.machine.devices (move.target * size) (move.source * size)
    (move.count * size)

theorem moveItems_wish (site : Site) (move : ItemMove) :
    (moveItems move).Ensures site
      (fun _ after => ∃ region others, site.wish move = .ok (region, others) ∧ after = { site with
        machine.devices := others
        buffer.storage :=
          site.buffer.storage.withRegion site.buffer.storage.context.readDomain region })
      fun stop after => after = site ∧ ∀ error, stop = .error error →
        site.wish move = .error stop := by
  have hfault : ∀ fault, site = site ∧ ∀ error, Stop.fault fault = .error error →
      site.wish move = .error (.fault fault) :=
    fun fault => ⟨rfl, nofun⟩
  unfold moveItems
  refine .get_bind (.lift_cases hfault fun target ht => .lift_cases hfault fun source hs =>
    .lift_cases hfault fun length hl => ?_)
  obtain ⟨_, rfl⟩ := Word.mul_eq_ok_iff.mp ht
  obtain ⟨_, rfl⟩ := Word.mul_eq_ok_iff.mp hs
  obtain ⟨_, rfl⟩ := Word.mul_eq_ok_iff.mp hl
  unfold wish
  dsimp only
  cases move.overlapping with
  | true =>
    exact .attempt_cases (fun stop hs => ⟨rfl, fun _ _ => hs⟩)
      fun ⟨region, others⟩ he => ⟨region, others, he, rfl⟩
  | false =>
    exact .attempt_cases (fun stop hs => ⟨rfl, fun _ _ => hs⟩)
      fun ⟨region, others⟩ he => ⟨region, others, he, rfl⟩

theorem moveItems_untouched (site : Site) (move : ItemMove) :
    (moveItems move).Ensures site (fun _ _ => True) site.Untouched :=
  (moveItems_wish site move).mono (fun _ _ _ => trivial) fun _ _ hs _ _ => hs.1

theorem moves_untouched (h : site.Enclosed geometry context) {plan : Plan}
    (hc : plan.Contained site.buffer.cursors geometry.capacity geometry.capacity) :
    ((plan.moves site.buffer.cursors.writeIndex).forM moveItems).Ensures site
      (fun _ _ => True) site.Untouched := by
  have hone : ∀ move, ([move].forM moveItems).Ensures site (fun _ _ => True) site.Untouched := by
    intro move
    exact Action.Ensures.bind (moveItems_untouched site move) fun _ _ _ => .pure trivial
  cases hc with
  | history => exact hone _
  | output => exact hone _
  | @input required front moved wrapped hmoved hfront hroom hreach _ =>
    have hw := h.bounded.writeIndex_lt
    have hpos := h.measured.itemSize_pos
    have hlimit := h.measured.bytes_lt
    have hbacked := h.backed
    rw [h.geometry_eq] at hpos hlimit hbacked
    unfold Geometry.bytes at hlimit hbacked
    apply Action.Ensures.bind
      ((moveItems_wish site _).mono (fun _ _ hd => hd) fun _ _ hs _ _ => hs.1)
    rintro _ mid ⟨region, others, he, rfl⟩
    unfold wish at he
    rw [h.geometry_eq] at he
    simp only [if_true, Nat.zero_mul] at he
    by_cases h0 : site.buffer.cursors.writeIndex = 0
    · -- nothing lies in front, and so nothing was moved
      rw [h0, Nat.zero_mul] at he
      unfold Region.moveWithin at he
      rw [if_pos (.inl rfl)] at he
      cases he
      rw [hbacked.withRegion_readRegion]
      exact hone _
    · have hsource := Nat.mul_le_mul_right geometry.itemSize
        (show front + moved ≤ geometry.capacity by omega)
      have hapart := Nat.mul_le_mul_right geometry.itemSize (show moved ≤ front by omega)
      have hfits := Nat.mul_le_mul_right geometry.itemSize
        (show moved + site.buffer.cursors.writeIndex ≤ geometry.capacity by omega)
      have hcount := Nat.mul_pos (Nat.pos_of_ne_zero h0) hpos
      have hshift := Nat.mul_pos hmoved hpos
      rw [Nat.add_mul] at hsource hfits
      obtain ⟨result, hcopy⟩ :=
        hbacked.copies_of_moved hlimit (by omega) hfits hcount (by omega) he hsource
        (show 0 * geometry.itemSize + moved * geometry.itemSize ≤
          front * geometry.itemSize by omega)
      rw [← h.geometry_eq] at hcopy
      refine Action.Ensures.bind
        ((moveItems_wish _ _).mono (fun _ _ hd => hd) fun stop last hs error hstop => ?_)
        fun _ _ _ => .pure trivial
      cases (hs.2 error hstop).symm.trans hcopy

theorem carryOut_untouched (h : site.Enclosed geometry context) {plan : Plan}
    (hc : plan.Contained site.buffer.cursors geometry.capacity geometry.capacity) :
    (carryOut plan).Ensures site (fun _ _ => True) site.Untouched := by
  unfold carryOut
  refine .get_bind (Action.Ensures.bind (moves_untouched h hc) fun _ mid _ => ?_)
  exact .lift_cases (untouched_fault site mid) fun _ _ => trivial

theorem follow_untouched (h : site.Enclosed geometry context) {decision : Decision}
    (hd : ∀ plan, decision = .planned plan →
      plan.Contained site.buffer.cursors geometry.capacity geometry.capacity) :
    (follow decision).Ensures site (fun _ _ => True) site.Untouched := by
  cases decision with
  | idle => exact .pure trivial
  | blocked event => exact trivial
  | planned plan =>
    exact Action.Ensures.bind (carryOut_untouched h (hd plan rfl)) fun _ _ _ => .pure trivial

/-! ## Blocked stages -/

theorem unblockOutput_untouched (h : site.Enclosed geometry context) (multiple : Nat)
    (force : Bool) :
    (unblockOutput multiple force).Ensures site (fun _ _ => True) site.Untouched := by
  unfold unblockOutput
  refine .ok_bind (a := site.buffer.geometry.mapping == .single) (t := site) rfl ?_
  split
  · refine .get_bind (.lift_cases (untouched_fault site site) fun decision hd => ?_)
    apply follow_untouched h
    rintro plan rfl
    rw [h.geometry_eq] at hd
    exact Cursors.contained_of_planOutput hd
  · exact .pure trivial

theorem reader_untouched {next : Reader → Action Site α} {id : Nat}
    (hn : ∀ reader, site.buffer.cursors.reader? id = some reader →
      (next reader).Ensures site (fun _ _ => True) site.Untouched) :
    (reader id >>= next).Ensures site (fun _ _ => True) site.Untouched := by
  apply Action.Ensures.bind ((reader_spec site id).mono (fun _ _ hr => hr) fun _ _ he _ _ => he)
  rintro reader _ ⟨rfl, hr⟩
  exact hn reader hr

theorem unblockInput_untouched (h : site.Enclosed geometry context) (id required : Nat) :
    (unblockInput id required).Ensures site (fun _ _ => True) site.Untouched := by
  unfold unblockInput supply unblockInputAt
  refine .ok_bind (a := site.buffer.geometry.mapping == .single) (t := site) rfl ?_
  split
  · rename_i hflat
    have hsingle : site.buffer.geometry.mapping = .single := eq_of_beq hflat
    apply reader_untouched
    intro reader hr
    simp only [bind_assoc]
    apply reader_untouched
    intro same hsame
    cases hr.symm.trans hsame
    refine .get_bind (.lift_cases (untouched_fault site site) fun supply hs => ?_)
    refine .ok_bind (a := site.buffer.geometry.mapping == .single) (t := site) rfl ?_
    rw [hflat, if_pos rfl]
    refine .get_bind (.lift_cases (untouched_fault site site) fun decision hd => ?_)
    apply follow_untouched h
    rintro plan rfl
    have hend : reader.readIndex + supply ≤ geometry.capacity := by
      unfold Buffer.supply Cursors.supply at hs
      rw [hsingle, h.geometry_eq] at hs
      exact h.bounded.flatSupply (Cursors.mem_of_reader? hr).1 hs
    have hplan := h.bounded.planInput hd
    rwa [Nat.max_eq_left hend] at hplan
  · exact .pure trivial

/-! ## Room -/

theorem flatSpace_untouched (h : site.Enclosed geometry context) :
    flatSpace.Ensures site (fun _ _ => True) site.Untouched := by
  have hroom : ∀ (mid : Site) capacity,
      (get >>= fun site : Site => liftM (site.buffer.cursors.flatRoom capacity) :
      Action Site Nat).Ensures mid (fun _ _ => True) site.Untouched := by
    intro mid capacity
    refine .get_bind ?_
    cases mid.buffer.cursors.flatRoom capacity with
    | ok room => trivial
    | error fault => exact untouched_fault site mid fault
  unfold flatSpace
  refine .get_bind (.lift_cases (untouched_fault site site) fun needed _ => ?_)
  dsimp only
  split
  · refine .lift_cases (untouched_fault site site) fun decision hd => ?_
    have hfollow : (follow decision).Ensures site (fun _ _ => True) site.Untouched := by
      apply follow_untouched h
      rintro plan rfl
      rw [h.geometry_eq] at hd
      exact h.bounded.planHistory hd
    apply Action.Ensures.bind hfollow
    intro moved mid _
    split
    · exact hroom mid _
    · exact .pure trivial
  · exact hroom site _

/-- The site as it is once room was asked for, with the tags that a pruning left and the number that
it dropped. -/
def prunedTo (site : Site) (pruned : Nat × Tag.Index) : Site where
  machine :=
    if 0 < pruned.1 then
      site.machine.log site.buffer.owner.name (.tagsPruned pruned.1 site.buffer.lastSlowest)
    else site.machine
  buffer := { site.buffer with tags := pruned.2, lastSlowest := site.buffer.cursors.slowest }

theorem pruneBehindReaders_same (h : site.buffer.cursors.slowest = site.buffer.lastSlowest) :
    pruneBehindReaders site = .ok ⟨⟩ site := by
  have hspec : pruneBehindReaders.Ensures site (fun _ after => after = site) fun _ _ => False := by
    unfold pruneBehindReaders
    refine .get_bind ?_
    dsimp only
    rw [if_neg (not_not_intro h)]
    exact .pure rfl
  obtain ⟨_, _, he, rfl⟩ := hspec.finishes
  exact he

theorem pruneBehindReaders_eq (h : site.buffer.cursors.slowest ≠ site.buffer.lastSlowest)
    {pruned : Nat × Tag.Index} (ht : site.buffer.tags.prune site.buffer.lastSlowest
      site.buffer.cursors.maxDelay site.buffer.geometry.capacity = .ok pruned) :
    pruneBehindReaders site = .ok ⟨⟩ (site.prunedTo pruned) := by
  have hspec : pruneBehindReaders.Ensures site (fun _ after => after = site.prunedTo pruned)
      fun _ _ => False := by
    have hprune : (prune site.buffer.lastSlowest).Ensures site
        (fun _ mid =>
          { mid with buffer.lastSlowest := site.buffer.cursors.slowest } = site.prunedTo pruned)
        fun _ _ => False := by
      unfold prune prunedTo
      refine .get_bind (.lift_bind ht (.modify_bind ?_))
      split
      · exact .modify_bind (.pure rfl)
      · exact .pure rfl
    unfold pruneBehindReaders
    refine .get_bind ?_
    dsimp only
    rw [if_pos h]
    exact Action.Ensures.bind (Action.Ensures.bind hprune fun _ _ he => .pure he) fun _ _ he => he
  obtain ⟨_, _, he, rfl⟩ := hspec.finishes
  exact he

/-- Nothing changed but that tags were pruned that all readers have left behind. -/
structure Pruned (site mid : Site) : Prop where
  devices_eq : mid.machine.devices = site.machine.devices
  buffer_eq : mid.buffer =
    { site.buffer with tags := mid.buffer.tags, lastSlowest := mid.buffer.lastSlowest }
  tags_eq : mid.buffer.tags = site.buffer.tags ∨
    ∃ removed, site.buffer.tags.prune site.buffer.lastSlowest
    site.buffer.cursors.maxDelay site.buffer.geometry.capacity = .ok (removed, mid.buffer.tags)

theorem Pruned.refl (site : Site) : site.Pruned site := ⟨rfl, rfl, .inl rfl⟩

theorem pruneBehindReaders_cases (site : Site) :
    pruneBehindReaders.Ensures site
      (fun _ _ => site.buffer.cursors.slowest ≠ site.buffer.lastSlowest → ∃ pruned,
        site.buffer.tags.prune site.buffer.lastSlowest site.buffer.cursors.maxDelay
          site.buffer.geometry.capacity = .ok pruned)
      fun stop _ => ∃ fault, stop = .fault fault := by
  unfold pruneBehindReaders
  refine .get_bind ?_
  dsimp only
  split
  · refine Action.Ensures.bind
      (Action.Ensures.bind (.get_bind (.lift_cases (fun fault => ⟨fault, rfl⟩) ?_))
      fun _ _ ht => .pure ht) fun _ _ ht => ht
    intro pruned ht
    refine .modify_bind ?_
    split
    · exact .modify_bind (.pure fun _ => ⟨pruned, ht⟩)
    · exact .pure fun _ => ⟨pruned, ht⟩
  · rename_i h
    exact .pure fun hn => absurd hn h

/-- Pruning does not look at the devices, and there is nothing left to prune when it is done. -/
theorem pruneBehindReaders_again {mid : Site} (he : pruneBehindReaders site = .ok ⟨⟩ mid) :
    site.Pruned mid ∧ ∀ devices,
      pruneBehindReaders (site.withDevices devices) = .ok ⟨⟩ (mid.withDevices devices) ∧
      pruneBehindReaders (mid.withDevices devices) = .ok ⟨⟩ (mid.withDevices devices) := by
  by_cases h : site.buffer.cursors.slowest = site.buffer.lastSlowest
  · rw [pruneBehindReaders_same h] at he
    cases he
    exact ⟨.refl site, fun devices => ⟨pruneBehindReaders_same h, pruneBehindReaders_same h⟩⟩
  · obtain ⟨pruned, ht⟩ := (pruneBehindReaders_cases site).of_ok he h
    rw [pruneBehindReaders_eq h ht] at he
    cases he
    refine ⟨⟨?_, rfl, .inr ⟨pruned.1, ht⟩⟩, fun devices => ⟨?_, pruneBehindReaders_same rfl⟩⟩
    · unfold prunedTo
      split <;> rfl
    · have hd : (site.prunedTo pruned).withDevices devices =
          (site.withDevices devices).prunedTo pruned := by
        unfold prunedTo withDevices
        dsimp only
        split <;> rfl
      rw [hd]
      exact @pruneBehindReaders_eq (site.withDevices devices) h pruned ht

theorem space_eq {mid : Site} (hr : site.buffer.cursors.readers ≠ [])
    (hs : site.buffer.geometry.mapping = .single) (hp : pruneBehindReaders site = .ok ⟨⟩ mid) :
    space site = flatSpace mid := by
  have hsome : site.buffer.cursors.readers.isEmpty = false := by simpa using hr
  have hspace : space site = (pruneBehindReaders >>= fun _ => flatSpace) site := by
    unfold space
    change (if site.buffer.cursors.readers.isEmpty = true then _ else _ : Action Site Nat) site = _
    rw [if_neg (by simp [hsome]), hs]
  rw [hspace]
  exact Action.bind_of_ok _ hp

/-- Room is refused only when the tags are pruned, and then it was refused at once. -/
theorem space_refused (h : site.Enclosed geometry context) :
    space.Ensures site (fun _ _ => True) fun stop after => ∀ error, stop = .error error →
      site.buffer.cursors.readers ≠ [] ∧ site.buffer.geometry.mapping = .single ∧
        pruneBehindReaders site = .ok ⟨⟩ after := by
  have hprune : pruneBehindReaders.Ensures site
      (fun _ mid => mid.Enclosed geometry context ∧ pruneBehindReaders site = .ok ⟨⟩ mid)
      fun stop _ => ∃ fault, stop = .fault fault := by
    unfold Action.Ensures
    cases he : pruneBehindReaders site with
    | ok _ mid => exact ⟨(pruneBehindReaders_confines h).of_ok he, rfl⟩
    | error stop mid => exact (pruneBehindReaders_cases site).of_error he
  unfold space
  refine .get_bind ?_
  dsimp only
  split
  · cases Word.sub site.buffer.geometry.capacity 1 <;> first | trivial | exact nofun
  · rename_i hreaders
    have hr : site.buffer.cursors.readers ≠ [] := by simpa using hreaders
    apply Action.Ensures.bind (hprune.mono (fun _ _ hd => hd) _)
    · rintro _ mid ⟨hm, hp⟩
      cases hs : site.buffer.geometry.mapping with
      | single =>
        apply (flatSpace_untouched hm).mono (fun _ _ _ => trivial)
        intro stop after hu error he
        rw [hu error he]
        exact ⟨hr, rfl, hp⟩
      | double =>
        cases site.buffer.cursors.ringRoom site.buffer.geometry.capacity <;>
          first | trivial | exact nofun
    · rintro _ mid ⟨fault, rfl⟩
      exact nofun

/-- With these devices, room is what it would have been without the refusal. -/
theorem space_again (h : site.Enclosed geometry context) {error : Error} {after : Site}
    (he : space site = .error (.error error) after) :
    site.Pruned after ∧ ∀ devices, space (after.withDevices devices) =
      space (site.withDevices devices) := by
  obtain ⟨hr, hs, hp⟩ := (space_refused h).of_error he error rfl
  obtain ⟨hpruned, hagain⟩ := pruneBehindReaders_again hp
  refine ⟨hpruned, fun devices => ?_⟩
  have hcursors : after.buffer.cursors = site.buffer.cursors := by rw [hpruned.buffer_eq]
  have hgeometry : after.buffer.geometry = site.buffer.geometry := by rw [hpruned.buffer_eq]
  obtain ⟨hfirst, hsecond⟩ := hagain devices
  rw [@space_eq (site.withDevices devices) _ hr hs hfirst]
  exact @space_eq (after.withDevices devices) _ (hcursors ▸ hr) (hgeometry ▸ hs) hsecond

theorem isOutputBlocked_eq (hs : site.buffer.geometry.mapping = .single) (multiple : Nat) :
    isOutputBlocked multiple site =
      (space >>= fun room => pure (decide (room < max multiple 1))) site := by
  unfold isOutputBlocked
  change (if (site.buffer.geometry.mapping == .single) = true then _ else _ : Action Site Bool)
    site = _
  rw [hs]
  rfl

theorem isOutputBlocked_again (h : site.Enclosed geometry context) {multiple : Nat} {error : Error}
    {after : Site} (he : isOutputBlocked multiple site = .error (.error error) after) :
    site.Pruned after ∧ ∀ devices,
      isOutputBlocked multiple (after.withDevices devices) =
        isOutputBlocked multiple (site.withDevices devices) := by
  by_cases hs : site.buffer.geometry.mapping = .single
  · rw [isOutputBlocked_eq hs] at he
    obtain ⟨hpruned, hagain⟩ := space_again h (Action.of_map_error he)
    have hgeometry : after.buffer.geometry = site.buffer.geometry := by rw [hpruned.buffer_eq]
    refine ⟨hpruned, fun devices => ?_⟩
    rw [@isOutputBlocked_eq (site.withDevices devices) hs,
      @isOutputBlocked_eq (after.withDevices devices) (hgeometry ▸ hs)]
    exact Action.bind_congr _ (hagain devices)
  · unfold isOutputBlocked at he
    change (if (site.buffer.geometry.mapping == .single) = true then _ else _ : Action Site Bool)
      site = _ at he
    rw [if_neg (by simpa using hs)] at he
    cases he

/-! ## Publishing -/

end Site

def Storage.publication (storage : Storage) (devices : Devices) (offset length : Nat) :
    Attempt (Storage × Devices) :=
  if storage.isShared || length == 0 then .ok (storage, devices)
    else storage.transfer devices offset length

theorem Storage.publish_publication (storage : Storage) (offset length : Nat) (machine : Machine) :
    (storage.publish offset length).Ensures machine
      (fun result after => storage.publication machine.devices offset length =
        .ok (result, after.devices))
      fun stop after => storage.publication machine.devices offset length = .error stop ∧
        after.devices = machine.devices := by
  unfold publish publication
  by_cases hskip : (storage.isShared || length == 0) = true
  · simp only [if_pos hskip]
    exact Action.Ensures.pure rfl
  · simp only [if_neg hskip]
    refine .get_bind ?_
    cases storage.transfer machine.devices offset length with
    | ok result => exact Action.Ensures.modify_bind (.pure rfl)
    | error stop =>
      cases stop with
      | error error => exact ⟨rfl, rfl⟩
      | fault fault => exact ⟨rfl, rfl⟩

namespace Site

variable {site : Site}

/-- What is posted at a site is decided by its buffer and the devices. -/
def posted (buffer : Buffer) (devices : Devices) (items : Nat) : Attempt (Storage × Devices) := do
  let offset ← Word.mul buffer.cursors.writeIndex buffer.geometry.itemSize
  let length ← Word.mul items buffer.geometry.itemSize
  buffer.storage.publication devices offset length

/-- The two sites differ at most in what their journals say. -/
structure Twins (site other : Site) : Prop where
  buffer_eq : other.buffer = site.buffer
  devices_eq : other.machine.devices = site.machine.devices

theorem Twins.pruned {other : Site} (h : site.Twins other) : site.Pruned other :=
  ⟨h.devices_eq, by rw [h.buffer_eq], .inl (by rw [h.buffer_eq])⟩

theorem post_posted (site : Site) (items : Nat) :
    (post items).Ensures site
      (fun _ after => ∃ storage,
        posted site.buffer site.machine.devices items = .ok (storage, after.machine.devices) ∧
        after.buffer = { site.buffer with storage })
      fun stop after => posted site.buffer site.machine.devices items = .error stop ∧
      site.Twins after := by
  unfold post posted
  refine .get_bind ?_
  dsimp only
  cases Word.mul site.buffer.cursors.writeIndex site.buffer.geometry.itemSize with
  | error fault => exact ⟨rfl, rfl, rfl⟩
  | ok offset =>
    cases Word.mul items site.buffer.geometry.itemSize with
    | error fault => exact ⟨rfl, rfl, rfl⟩
    | ok length =>
      have hpublish :=
        onMachine_spec (site.buffer.storage.publish_publication offset length site.machine)
      apply Action.Ensures.bind (hpublish.mono (fun _ _ hd => hd) _)
      · rintro storage _ ⟨machine, hp, rfl⟩
        exact ⟨storage, hp, rfl⟩
      · rintro stop _ ⟨machine, ⟨hp, hd⟩, rfl⟩
        exact ⟨hp, rfl, hd⟩

/-- Twins post alike. -/
theorem Twins.post {other : Site} (h : site.Twins other) (items : Nat) :
    (Act.post items).outcome other = (Act.post items).outcome site ∧
      ((Act.post items).after site).Twins ((Act.post items).after other) := by
  have hposted : posted other.buffer other.machine.devices items =
      posted site.buffer site.machine.devices items := by
    rw [h.buffer_eq, h.devices_eq]
  have hperform : ∀ site : Site, (Act.post items).perform site =
      match Site.post items site with
      | .ok _ after => .ok .done after
      | .error stop after => .error stop after := by
    intro site
    unfold Act.perform
    cases hp : Site.post items site with
    | ok _ after => exact Action.bind_of_ok _ hp
    | error stop after => exact Action.bind_of_error _ hp
  unfold Act.outcome Act.after
  rw [hperform, hperform]
  -- whether it is refused is decided by buffer and devices, and these are the same
  cases hs : Site.post items site with
  | ok _ after =>
    obtain ⟨storage, hp, hb⟩ := (post_posted site items).of_ok hs
    cases ho : Site.post items other with
    | ok _ last =>
      obtain ⟨storage', hp', hb'⟩ := (post_posted other items).of_ok ho
      have hsame := (hp'.symm.trans hposted).trans hp
      simp only [Except.ok.injEq, Prod.mk.injEq] at hsame
      obtain ⟨rfl, hd⟩ := hsame
      exact ⟨rfl, by rw [hb', hb, h.buffer_eq], hd⟩
    | error stop last =>
      cases (((post_posted other items).of_error ho).1.symm.trans hposted).trans hp
  | error stop after =>
    obtain ⟨hp, ht⟩ := (post_posted site items).of_error hs
    cases ho : Site.post items other with
    | ok _ last =>
      obtain ⟨storage, hp', hb⟩ := (post_posted other items).of_ok ho
      cases (hp'.symm.trans hposted).trans hp
    | error stop' last =>
      obtain ⟨hp', ht'⟩ := (post_posted other items).of_error ho
      cases (hp'.symm.trans hposted).trans hp
      exact ⟨rfl, ht'.buffer_eq.trans (h.buffer_eq.trans ht.buffer_eq.symm),
        ht'.devices_eq.trans (h.devices_eq.trans ht.devices_eq.symm)⟩

end Site

/-! ## Calls -/

def Act.asksDevice : Act → Bool
  | call .space | call (.isOutputBlocked _) | call (.unblockOutput ..)
  | call (.unblockInput ..) | post _ => true
  | _ => false

namespace Site

variable {geometry : Geometry} {context : Context} {site after : Site} {act : Act} {error : Error}

theorem Enclosed.again (h : site.Enclosed geometry context) (ha : act.asksDevice = true)
    (he : act.perform site = .error (.error error) after) :
    site.Pruned after ∧ ∀ devices,
      act.outcome (after.withDevices devices) = act.outcome (site.withDevices devices) ∧
        (act.after (site.withDevices devices)).Twins (act.after (after.withDevices devices)) := by
  -- the outcome is read off the run, so equal runs suffice
  have alike : ∀ {last : Site} devices,
      act.perform (last.withDevices devices) = act.perform (site.withDevices devices) →
      act.outcome (last.withDevices devices) = act.outcome (site.withDevices devices) ∧
        (act.after (site.withDevices devices)).Twins (act.after (last.withDevices devices)) := by
    intro last devices hp
    unfold Act.outcome Act.after
    rw [hp]
    exact ⟨rfl, rfl, rfl⟩
  have unchanged : after = site → site.Pruned after ∧ ∀ devices,
      act.outcome (after.withDevices devices) = act.outcome (site.withDevices devices) ∧
        (act.after (site.withDevices devices)).Twins (act.after (after.withDevices devices)) := by
    rintro rfl
    exact ⟨.refl _, fun devices => alike devices rfl⟩
  cases act with
  | post items =>
    have hpost : Site.post items site = .error (.error error) after := Action.of_map_error he
    -- a refused publication logs an event; the sites differ in that
    have htwins := ((post_posted site items).of_error hpost).2
    refine ⟨htwins.pruned, fun devices => ?_⟩
    exact @Twins.post (site.withDevices devices) (after.withDevices devices)
      ⟨htwins.buffer_eq, rfl⟩ items
  | store | move | fault => cases ha
  | call c =>
    cases c with
    | space =>
      obtain ⟨hpruned, hagain⟩ := space_again h (Action.of_map_error he)
      exact ⟨hpruned, fun devices => alike devices (Action.bind_congr _ (hagain devices))⟩
    | isOutputBlocked multiple =>
      obtain ⟨hpruned, hagain⟩ := isOutputBlocked_again h (Action.of_map_error he)
      exact ⟨hpruned, fun devices => alike devices (Action.bind_congr _ (hagain devices))⟩
    | unblockOutput multiple force =>
      exact unchanged
        ((unblockOutput_untouched h multiple force).of_error (Action.of_map_error he) error rfl)
    | unblockInput id required =>
      exact unchanged
        ((unblockInput_untouched h id required).of_error (Action.of_map_error he) error rfl)
    | _ => cases ha

end Site

variable {backend : Backend} {request : Request} {id granted : Nat} {machine allocated : Machine}
variable {buffer : Buffer}
variable {site after : Site} {act : Act} {error : Error}

/-- **Refusals.** Whatever was done to the buffer before, and whenever between acts its device was
broken or repaired: a refused act changes no cursor and no byte, and drops no tag but those that all
readers have left behind. With any devices it then does what it would have done with them in the
first place. While an act is carried out no device changes of itself. -/
theorem refused_acts_can_be_repeated (hr : backend.Ready machine.devices)
    (ha : Buffer.allocate backend request id machine = .ok buffer allocated)
    (hplay : Play (fun _ site act => act.InRegion site) ⟨allocated, buffer⟩ granted site)
    (hact : act.asksDevice = true) (he : act.perform site = .error (.error error) after) :
    site.Pruned after ∧ ∀ devices,
      act.outcome (after.withDevices devices) = act.outcome (site.withDevices devices) ∧
        (act.after (site.withDevices devices)).Twins (act.after (after.withDevices devices)) :=
  ((Buffer.allocate_delivers hr ha).enclosed.play hplay).again hact he

def Site.stranded (start : Site) : Site :=
  [.call (.attach 1 0), .move 4, .call (.read 0 3), .move 1, .fault 0 true].foldl
    (fun site act => Act.after act site) start

/-- The reader asks for two items in one run. It is not helped before the device is repaired. -/
theorem refused_acts_can_be_repeated_on_device :
    ∃ buffer allocated,
      Buffer.allocate (.device 0) (.short .deviceToDevice) 0 .moving = .ok buffer allocated ∧
      let site := Site.stranded ⟨allocated, buffer⟩
      let wait : Act := .call (.unblockInput 0 2)
      ∃ error after, wait.perform site = .error (.error error) after ∧ site.Pruned after ∧
        wait.outcome (after.withDevices (after.machine.devices.setFaulty 0 false)) =
          .ok (.told true) := by
  have hready : (Backend.device 0).Ready Machine.moving.devices := ⟨by decide, nofun, by decide⟩
  have hplay : ∀ start : Site,
      Play (fun _ site act => act.InRegion site) start 0 start.stranded := by
    intro start
    have hstart : Play (fun _ site act => act.InRegion site) start 0 start := .refl
    have hattached := hstart.tail (.call (.attach 1 0)) trivial
    have hfour := hattached.tail (.move 4) trivial
    have hread := hfour.tail (.call (.read 0 3)) trivial
    have hfive := hread.tail (.move 1) trivial
    exact hfive.tail (.fault 0 true) trivial
  have hrefused : ∃ buffer allocated,
      Buffer.allocate (.device 0) (.short .deviceToDevice) 0 .moving = .ok buffer allocated ∧
      let site := Site.stranded ⟨allocated, buffer⟩
      let wait : Act := .call (.unblockInput 0 2)
      (∃ error, wait.perform site = .error (.error error) site) ∧
        wait.outcome (site.withDevices (site.machine.devices.setFaulty 0 false)) =
          .ok (.told true) := by
    refine ⟨_, _, rfl, ⟨.injectedFault .move "emulated", ?_⟩, ?_⟩
    · cbv
    · cbv
  obtain ⟨buffer, allocated, ha, ⟨error, he⟩, hwould⟩ := hrefused
  obtain ⟨hpruned, hagain⟩ := refused_acts_can_be_repeated hready ha (hplay _) rfl he
  exact ⟨buffer, allocated, ha, error, _, he, hpruned, (hagain _).1.trans hwould⟩

end StreamBuffer
