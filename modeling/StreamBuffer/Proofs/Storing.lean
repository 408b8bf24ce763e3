import StreamBuffer.Buffer.Production
import StreamBuffer.Proofs.Cursors.Bounds
import StreamBuffer.Proofs.Memory.Storage
import StreamBuffer.Proofs.Motion

/-!
# What reaches the storage

Items are moved inside the region that is read, stored and published. On a solid site each of these
changes the bytes that readers see and nothing else of the buffer, or the device of the storage
refuses.
-/

namespace StreamBuffer

def produced (size items : Nat) (source : Nat → UInt8) : Bytes :=
  Array.ofFn fun (i : Fin (items * size)) => source i

theorem size_produced (size items : Nat) (source : Nat → UInt8) :
    (produced size items source).size = items * size := Array.size_ofFn

structure Geometry.Measured (geometry : Geometry) : Prop where
  itemSize_pos : 0 < geometry.itemSize
  downstream_le : geometry.downstream ≤ geometry.capacity
  bytes_lt : geometry.bytes < Word.limit
  twice_le : 2 * geometry.capacity ≤ Word.limit

namespace Site

def readable (site : Site) : Bytes := site.buffer.storage.readable site.machine.devices

structure Solid (site : Site) : Prop where
  measured : site.buffer.geometry.Measured
  backed : site.buffer.storage.Backed site.machine.devices site.buffer.geometry.bytes

/-- What calls look at of a buffer and change, its storage apart. -/
structure Face where
  id : Nat
  geometry : Geometry
  cursors : Cursors
  tags : Tag.Index
  lastSlowest : Nat
  done : Bool

def face (site : Site) : Face :=
  ⟨site.buffer.id, site.buffer.geometry, site.buffer.cursors, site.buffer.tags,
    site.buffer.lastSlowest, site.buffer.done⟩

/-- Readers see other bytes; nothing else of the buffer differs. -/
structure Recasts (site : Site) (bytes : Bytes) (after : Site) : Prop where
  face_eq : after.face = site.face
  shows : site.buffer.storage.Shows site.machine.devices site.buffer.geometry.bytes bytes
    after.buffer.storage after.machine.devices

structure Balks (site : Site) (stop : Stop) (after : Site) : Prop where
  recasts : ∃ bytes, site.Recasts bytes after
  refuses : site.buffer.storage.Refuses site.machine.devices stop

variable {site mid after : Site} {bytes : Bytes} {α : Type}

theorem Solid.size_readable (h : site.Solid) : site.readable.size = site.buffer.geometry.bytes :=
  h.backed.size_readable

namespace Recasts

theorem geometry_eq (h : site.Recasts bytes after) : after.buffer.geometry = site.buffer.geometry :=
  congrArg Face.geometry h.face_eq

theorem cursors_eq (h : site.Recasts bytes after) : after.buffer.cursors = site.buffer.cursors :=
  congrArg Face.cursors h.face_eq

theorem readable_eq (h : site.Recasts bytes after) : after.readable = bytes := h.shows.readable_eq

theorem solid (h : site.Solid) (hr : site.Recasts bytes after) : after.Solid := by
  refine ⟨hr.geometry_eq ▸ h.measured, ?_⟩
  rw [hr.geometry_eq]
  exact hr.shows.backed

theorem size_eq (h : site.Solid) (hr : site.Recasts bytes after) :
    bytes.size = site.readable.size := by
  rw [← hr.readable_eq, (hr.solid h).size_readable, hr.geometry_eq, h.size_readable]

theorem trans {others : Bytes} (h : site.Recasts bytes mid) (hn : mid.Recasts others after) :
    site.Recasts others after := by
  refine ⟨hn.face_eq.trans h.face_eq, h.geometry_eq ▸ hn.shows.backed,
    hn.shows.context_eq.trans h.shows.context_eq,
    hn.shows.device_eq.trans h.shows.device_eq, h.shows.akin.trans hn.shows.akin,
    hn.shows.readable_eq⟩

end Recasts

theorem Solid.recasts (h : site.Solid) : site.Recasts site.readable site :=
  ⟨rfl, h.backed, rfl, rfl, .refl _, rfl⟩

theorem Solid.balks {stop : Stop} (h : site.Solid)
    (hr : site.buffer.storage.Refuses site.machine.devices stop) :
    site.Balks stop site := ⟨⟨_, h.recasts⟩, hr⟩

theorem Recasts.balks {stop : Stop} (h : site.Recasts bytes mid) (hb : mid.Balks stop after) :
    site.Balks stop after := by
  obtain ⟨⟨others, hr⟩, number, hd, hrefuses⟩ := hb
  refine ⟨⟨others, h.trans hr⟩, number, h.shows.device_eq ▸ hd, ?_⟩
  cases hrefuses with
  | faulty transfer hf =>
    rw [h.shows.akin.name_eq]
    exact .faulty transfer (h.shows.akin.faulty_eq number ▸ hf)
  | immovable length hf =>
    rw [h.shows.akin.name_eq]
    exact .immovable length (h.shows.akin.moves_eq number ▸ hf)

/-! ## Moves -/

theorem moveItems_spec (h : site.Solid) {move : ItemMove}
    (hf : move.Fits site.buffer.geometry.capacity) :
    (moveItems move).Ensures site
      (fun _ after => site.Recasts (move.apply site.buffer.geometry.itemSize site.readable) after)
      site.Balks := by
  have hs := Nat.mul_le_mul_right site.buffer.geometry.itemSize hf.source_le
  have ht := Nat.mul_le_mul_right site.buffer.geometry.itemSize hf.target_le
  have hlt := h.measured.bytes_lt
  unfold Geometry.bytes at hlt
  rw [Nat.add_mul] at hs ht
  have hapart : move.overlapping = false → move.target * site.buffer.geometry.itemSize +
      move.count * site.buffer.geometry.itemSize ≤ move.source * site.buffer.geometry.itemSize :=
      fun ho => by
    rw [← Nat.add_mul]
    exact Nat.mul_le_mul_right _ (hf.apart ho)
  unfold moveItems
  refine .get_bind ?_
  refine .lift_bind (Word.mul_eq_ok (by omega)) (.lift_bind (Word.mul_eq_ok (by omega))
    (.lift_bind (Word.mul_eq_ok (by omega)) ?_))
  rcases h.backed.moved hlt hs ht hapart with ⟨region, others, he, hshows⟩ | ⟨stop, he, hrefuses⟩
  · have hdone : site.Recasts (move.apply site.buffer.geometry.itemSize site.readable) { site with
        machine.devices := others
        buffer.storage :=
        site.buffer.storage.withRegion site.buffer.storage.context.readDomain region } :=
      ⟨rfl, hshows⟩
    cases ho : move.overlapping <;> rw [ho] at he <;> exact .attempt_bind he hdone
  · cases ho : move.overlapping <;> rw [ho] at he <;> exact .attempt_stop he (h.balks hrefuses)

/-- A copy from past the end is refused in the name of the domain that is read. -/
theorem moveItems_beyond (h : site.Solid) {move : ItemMove}
    (ho : move.Overhangs site.buffer.geometry.capacity) :
    moveItems move site = .error (.error (.rangeExceedsRegion .copySource
      (move.source * site.buffer.geometry.itemSize) (move.count * site.buffer.geometry.itemSize)
      site.buffer.storage.context.readDomain site.buffer.geometry.bytes)) site := by
  obtain ⟨hcopied, hcount, hsource, htarget, hbeyond⟩ := ho
  have hpos := h.measured.itemSize_pos
  have hlt := h.measured.bytes_lt
  have hs := Nat.mul_le_mul_right site.buffer.geometry.itemSize (Nat.le_of_lt hsource)
  have ht := Nat.mul_le_mul_right site.buffer.geometry.itemSize htarget
  have hb := Nat.mul_lt_mul_of_pos_right hbeyond hpos
  rw [Nat.add_mul] at ht hb
  unfold Geometry.bytes at hlt ⊢
  have hspec : (moveItems move).Ensures site (fun _ _ => False) fun stop after => after = site ∧
      stop = .error (.rangeExceedsRegion .copySource (move.source * site.buffer.geometry.itemSize)
        (move.count * site.buffer.geometry.itemSize) site.buffer.storage.context.readDomain
        (site.buffer.geometry.capacity * site.buffer.geometry.itemSize)) := by
    unfold moveItems
    refine .get_bind ?_
    refine .lift_bind (Word.mul_eq_ok (by omega)) (.lift_bind (Word.mul_eq_ok (by omega))
      (.lift_bind (Word.mul_eq_ok (by omega)) ?_))
    -- a copy checks its source first
    rw [hcopied]
    exact .attempt_stop (h.backed.copyWithin_beyond (Nat.mul_pos hcount hpos) hb) ⟨rfl, rfl⟩
  unfold Action.Ensures at hspec
  cases he : moveItems move site with
  | ok _ _ =>
    rw [he] at hspec
    exact hspec.elim
  | error stop after =>
    rw [he] at hspec
    rw [hspec.1, hspec.2]

/-- All moves of a plan, or those before the one that was refused. -/
theorem moveAll_spec (h : site.Solid) {moves : List ItemMove}
    (hf : ∀ move ∈ moves, move.Fits site.buffer.geometry.capacity) :
    (moves.forM moveItems).Ensures site
      (fun _ after =>
        site.Recasts (moves.foldl (ItemMove.apply site.buffer.geometry.itemSize) site.readable)
          after)
      site.Balks := by
  induction moves generalizing site with
  | nil => exact h.recasts
  | cons move rest ih =>
    apply (moveItems_spec h (hf move (List.mem_cons_self ..))).bind
    intro _ mid hm
    have hfit : ∀ move ∈ rest, move.Fits mid.buffer.geometry.capacity := fun m hr => by
      rw [hm.geometry_eq]
      exact hf m (List.mem_cons_of_mem _ hr)
    refine (ih (hm.solid h) hfit).mono (fun _ after hd => ?_) fun _ _ hs => hm.balks hs
    rw [hm.geometry_eq, hm.readable_eq] at hd
    exact hm.trans hd

/-! ## Production -/

theorem store_spec (h : site.Solid) {data : Bytes}
    (hd : site.buffer.writeOffset + data.size ≤ site.buffer.geometry.bytes) :
    (store data).Ensures site
      (fun _ after =>
        site.Recasts (if site.buffer.storage.context.crosses then site.readable
          else site.readable.splice site.buffer.writeOffset data) after ∧
        (after.buffer.storage.writable after.machine.devices).slice site.buffer.writeOffset
          data.size = data)
      fun _ _ => False := by
  obtain ⟨hshows, hwritable⟩ := h.backed.stored hd
  refine ⟨⟨rfl, hshows⟩, ?_⟩
  refine (congrArg (Bytes.slice · site.buffer.writeOffset data.size) hwritable).trans
    (Bytes.slice_splice ?_)
  rw [h.backed.size_writable]
  exact hd

theorem onMachine_spec {action : Action Machine α} {done : α → Machine → Prop}
    {stopped : Stop → Machine → Prop} (h : action.Ensures site.machine done stopped) :
    (onMachine action).Ensures site
      (fun a after => ∃ machine, done a machine ∧ after = { site with machine })
      fun stop after => ∃ machine, stopped stop machine ∧ after = { site with machine } := by
  unfold Action.Ensures Site.onMachine
  unfold Action.Ensures at h
  cases hm : action site.machine with
  | ok a machine =>
    rw [hm] at h
    exact ⟨machine, h, rfl⟩
  | error stop machine =>
    rw [hm] at h
    exact ⟨machine, h, rfl⟩

theorem post_spec (h : site.Solid) (items : Nat)
    (hroom : site.buffer.cursors.writeIndex + items ≤ site.buffer.geometry.capacity) :
    (post items).Ensures site
      (fun _ after => site.Recasts (if site.buffer.storage.context.crosses then
          site.readable.splice site.buffer.writeOffset
            ((site.buffer.storage.writable site.machine.devices).slice site.buffer.writeOffset
              (items * site.buffer.geometry.itemSize))
          else site.readable) after)
      site.Balks := by
  have hle := Nat.mul_le_mul_right site.buffer.geometry.itemSize hroom
  have hlt := h.measured.bytes_lt
  rw [Nat.add_mul] at hle
  unfold Geometry.bytes at hlt
  unfold post
  refine .get_bind
    (.lift_bind (Word.mul_eq_ok (by omega)) (.lift_bind (Word.mul_eq_ok (by omega)) ?_))
  refine Action.Ensures.bind ((onMachine_spec (h.backed.published hle)).mono (fun _ _ hd => hd) ?_)
    fun storage mid ⟨machine, hs, hm⟩ => ?_
  · rintro stop after ⟨machine, ⟨hdevices, hrefuses⟩, rfl⟩
    refine ⟨⟨site.readable, rfl, ?_, rfl, rfl, ?_, ?_⟩, hrefuses⟩
    · exact hdevices ▸ h.backed
    · exact hdevices ▸ .refl _
    · exact congrArg site.buffer.storage.readable hdevices
  · subst hm
    exact ⟨rfl, hs⟩

/-- A whole production step up to the movement of the writer: the bytes are stored and published. -/
theorem deposit_spec {items : Nat} (h : site.Solid) (source : Nat → UInt8)
    (hroom : site.buffer.cursors.writeIndex + items ≤ site.buffer.geometry.capacity) :
    (store (produced site.buffer.geometry.itemSize items source) >>= fun _ => post items).Ensures
      site
      (fun _ after => site.Recasts (site.readable.splice site.buffer.writeOffset
        (produced site.buffer.geometry.itemSize items source)) after)
      site.Balks := by
  have hsize := size_produced site.buffer.geometry.itemSize items source
  have hle := Nat.mul_le_mul_right site.buffer.geometry.itemSize hroom
  rw [Nat.add_mul, ← hsize] at hle
  refine (store_spec h hle).sure_bind fun _ mid ⟨hm, hw⟩ => ?_
  have hoffset : mid.buffer.writeOffset = site.buffer.writeOffset := by
    unfold Buffer.writeOffset
    rw [hm.cursors_eq, hm.geometry_eq]
  have hfits : mid.buffer.cursors.writeIndex + items ≤ mid.buffer.geometry.capacity := by
    rw [hm.cursors_eq, hm.geometry_eq]
    exact hroom
  refine (post_spec (hm.solid h) items hfits).mono (fun _ last hp => ?_) fun _ _ hb => hm.balks hb
  rw [hm.shows.context_eq, hoffset, hm.geometry_eq, ← hsize, hw, hm.readable_eq] at hp
  have hlast := hm.trans hp
  split at hlast
  · exact hlast
  · exact hlast

theorem write_eq {items : Nat} (source : Nat → UInt8)
    (hroom : site.buffer.cursors.writeIndex + items ≤ site.buffer.geometry.capacity) :
    write items source site =
      ((store (produced site.buffer.geometry.itemSize items source) >>= fun _ =>
      post items) >>= fun _ => advance items) site := by
  have hfit : min items (site.buffer.geometry.capacity - site.buffer.cursors.writeIndex) =
      items := by omega
  rw [bind_assoc]
  change (store (produced site.buffer.geometry.itemSize
    (min items (site.buffer.geometry.capacity - site.buffer.cursors.writeIndex)) source) >>=
      fun _ =>
      post items >>= fun _ => advance items) site = _
  rw [hfit]

end Site

end StreamBuffer
