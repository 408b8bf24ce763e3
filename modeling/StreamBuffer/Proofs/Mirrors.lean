import StreamBuffer.Buffer.Blocking
import StreamBuffer.Proofs.Cursors.Bounds
import StreamBuffer.Proofs.Storing

/-!
# Two buffers in step

A buffer in any context mirrors one on the host if no call can tell them apart: what is not storage
is the same, and so are the bytes that readers see. Two actions are joint if they give the same and
leave one site mirroring the other, or if the device of the second refuses what it cannot do.
-/

namespace StreamBuffer

variable {movable beyond : Prop} {context : Context} {site other after last : Site}
variable {stop halt : Stop}
variable {α β : Type}

/-- One site is on the host, the other on storage whose device does what it can. -/
structure Site.Mirrors (movable : Prop) (context : Context) (site other : Site) : Prop where
  face_eq : other.face = site.face
  readable_eq : other.readable = site.readable
  solid : site.Solid
  solid_other : other.Solid
  host : site.buffer.storage.context = .hostToHost
  context_eq : other.buffer.storage.context = context
  bounded : site.buffer.cursors.Bounded site.buffer.geometry.capacity
  device : ∀ number, other.buffer.storage.device? = some number →
    (other.machine.devices.get number).faulty = false ∧
      (movable → (other.machine.devices.get number).supportsMove = true)

/-- The stops are the same, or both name the range that left a region, and each its own region. -/
inductive Stop.Matches (beyond : Prop) (context : Context) : Stop → Stop → Prop where
  | same (stop : Stop) : Matches beyond context stop stop
  | range (h : beyond) (offset length size : Nat) : Matches beyond context
      (.error (.rangeExceedsRegion .copySource offset length .host size))
      (.error (.rangeExceedsRegion .copySource offset length context.readDomain size))

def Stop.IsImmovable (movable : Prop) (stop : Stop) : Prop :=
  ¬ movable ∧ ∃ error : Error, stop = .error error ∧ error.kind = .unsupported

inductive Joint (movable : Prop) (context : Context) (beyond : Prop)
    (done : α → Site → Site → Prop) :
    EStateM.Result Stop Site α → EStateM.Result Stop Site α → Prop where
  | done {a : α} {after last : Site} (h : done a after last) :
      Joint movable context beyond done (.ok a after) (.ok a last)
  | stopped {stop halt : Stop} {after last : Site} (hs : stop.Matches beyond context halt)
      (h : after.Mirrors movable context last) :
      Joint movable context beyond done (.error stop after) (.error halt last)
  | refused {result : EStateM.Result Stop Site α} {stop : Stop} {last : Site}
      (h : stop.IsImmovable movable) : Joint movable context beyond done result (.error stop last)

def Action.Transparent (movable : Prop) (context : Context) (beyond : Prop)
    (action : Action Site α) :
    Prop :=
  ∀ site other, site.Mirrors movable context other →
    Joint movable context beyond (fun _ after last => after.Mirrors movable context last)
      (action site) (action other)

namespace Site.Mirrors

theorem geometry_eq (h : site.Mirrors movable context other) :
    other.buffer.geometry = site.buffer.geometry := congrArg Face.geometry h.face_eq

theorem cursors_eq (h : site.Mirrors movable context other) :
    other.buffer.cursors = site.buffer.cursors := congrArg Face.cursors h.face_eq

theorem tags_eq (h : site.Mirrors movable context other) :
    other.buffer.tags = site.buffer.tags := congrArg Face.tags h.face_eq

theorem turn (h : site.Mirrors movable context other)
    (hs : after.buffer.storage = site.buffer.storage)
    (hd : after.machine.devices = site.machine.devices)
    (hl : last.buffer.storage = other.buffer.storage)
    (hdl : last.machine.devices = other.machine.devices)
    (hg : after.buffer.geometry = site.buffer.geometry) (hf : last.face = after.face)
    (hb : after.buffer.cursors.Bounded site.buffer.geometry.capacity) :
    after.Mirrors movable context last := by
  have hgl : last.buffer.geometry = other.buffer.geometry :=
    (congrArg Face.geometry hf).trans (hg.trans h.geometry_eq.symm)
  refine ⟨hf, ?_, ?_, ?_, hs ▸ h.host, hl ▸ h.context_eq, hg ▸ hb, ?_⟩
  · unfold readable
    rw [hs, hd, hl, hdl]
    exact h.readable_eq
  · refine ⟨hg ▸ h.solid.measured, ?_⟩
    rw [hs, hd, hg]
    exact h.solid.backed
  · refine ⟨hgl ▸ h.solid_other.measured, ?_⟩
    rw [hl, hdl, hgl]
    exact h.solid_other.backed
  · rw [hl, hdl]
    exact h.device

theorem recast {bytes : Bytes} (h : site.Mirrors movable context other)
    (ha : site.Recasts bytes after) (hl : other.Recasts bytes last) :
    after.Mirrors movable context last := by
  refine ⟨?_, ?_, ha.solid h.solid, hl.solid h.solid_other, ha.shows.context_eq.trans h.host,
    hl.shows.context_eq.trans h.context_eq, ?_, fun number hn => ?_⟩
  · rw [hl.face_eq, ha.face_eq, h.face_eq]
  · rw [hl.readable_eq, ha.readable_eq]
  · rw [ha.cursors_eq, ha.geometry_eq]
    exact h.bounded
  · rw [hl.shows.akin.faulty_eq, hl.shows.akin.moves_eq]
    exact h.device number (hl.shows.device_eq ▸ hn)

/-- The host refuses nothing. -/
theorem not_balks (h : site.Mirrors movable context other) : ¬ site.Balks stop after := by
  intro hb
  obtain ⟨number, hd, _⟩ := hb.refuses
  rw [h.solid.backed.device?_host h.host] at hd
  cases hd

theorem isImmovable (h : site.Mirrors movable context other) (hb : other.Balks stop last) :
    stop.IsImmovable movable := by
  obtain ⟨number, hn, hr⟩ := hb.refuses
  obtain ⟨hfaulty, hmoves⟩ := h.device number hn
  cases hr with
  | faulty transfer hf =>
    rw [hfaulty] at hf
    cases hf
  | immovable length hm =>
    refine ⟨fun hmovable => ?_, _, rfl, rfl⟩
    rw [hmoves hmovable] at hm
    cases hm

end Site.Mirrors

/-! ## Rules -/

namespace Joint

variable {done mid : α → Site → Site → Prop} {post : β → Site → Site → Prop}
variable {result result' : EStateM.Result Stop Site α} {action twin : Action Site α}
variable {next next' : α → Action Site β}

theorem mono {done' : α → Site → Site → Prop} (h : Joint movable context beyond done result result')
    (hd : ∀ a after last, done a after last → done' a after last) :
    Joint movable context beyond done' result result' := by
  cases h with
  | done h => exact .done (hd _ _ _ h)
  | stopped hs h => exact .stopped hs h
  | refused h => exact .refused h

theorem widen {beyond' : Prop} (h : Joint movable context beyond done result result')
    (ho : beyond → beyond') :
    Joint movable context beyond' done result result' := by
  cases h with
  | done h => exact .done h
  | stopped hs h =>
    cases hs with
    | same => exact .stopped (.same _) h
    | range hr => exact .stopped (.range (ho hr) ..) h
  | refused h => exact .refused h

/-- The second actions may rely on the run of the first. -/
theorem run_bind (h : Joint movable context beyond mid (action site) (twin other))
    (hn : ∀ a after last, action site = .ok a after → mid a after last →
      Joint movable context beyond post (next a after) (next' a last)) :
    Joint movable context beyond post ((action >>= next) site) ((twin >>= next') other) := by
  change Joint movable context beyond post (EStateM.bind action next site)
    (EStateM.bind twin next' other)
  unfold EStateM.bind
  generalize action site = result at h hn
  generalize twin other = result' at h
  cases h with
  | done h => exact hn _ _ _ rfl h
  | stopped hs h => exact .stopped hs h
  | refused h => exact .refused h

theorem bind (h : Joint movable context beyond mid (action site) (twin other))
    (hn : ∀ a after last, mid a after last →
      Joint movable context beyond post (next a after) (next' a last)) :
    Joint movable context beyond post ((action >>= next) site) ((twin >>= next') other) :=
  h.run_bind fun a after last _ hm => hn a after last hm

theorem get_bind {next next' : Site → Action Site β}
    (h : Joint movable context beyond post (next site site) (next' other other)) :
    Joint movable context beyond post ((get >>= next) site) ((get >>= next') other) := h

theorem modify_bind {change change' : Site → Site} {next next' : PUnit → Action Site β}
    (h : Joint movable context beyond post (next ⟨⟩ (change site)) (next' ⟨⟩ (change' other))) :
    Joint movable context beyond post ((modify change >>= next) site)
      ((modify change' >>= next') other) := h

theorem lift_bind {checked : Checked α} (h : site.Mirrors movable context other)
    (hn : ∀ a, checked = .ok a → Joint movable context beyond post (next a site) (next' a other)) :
    Joint movable context beyond post ((liftM checked >>= next) site)
      ((liftM checked >>= next') other) := by
  cases checked with
  | ok a => exact hn a rfl
  | error fault => exact .stopped (.same _) h

theorem lift {checked : Checked α} (h : site.Mirrors movable context other)
    (hd : ∀ a, checked = .ok a → done a site other) :
    Joint movable context beyond done ((liftM checked : Action Site α) site)
      ((liftM checked : Action Site α) other) := by
  cases checked with
  | ok a => exact .done (hd a rfl)
  | error fault => exact .stopped (.same _) h

theorem attempt_bind {attempt : Attempt α} (h : site.Mirrors movable context other)
    (hn : ∀ a, attempt = .ok a → Joint movable context beyond post (next a site) (next' a other)) :
    Joint movable context beyond post ((liftM attempt >>= next) site)
      ((liftM attempt >>= next') other) := by
  cases attempt with
  | ok a => exact hn a rfl
  | error stop => exact .stopped (.same _) h

theorem of_recasts {action : Action Site PUnit} {bytes : Bytes}
    (h : site.Mirrors movable context other)
    (ha : action.Ensures site (fun _ after => site.Recasts bytes after) site.Balks)
    (hl : action.Ensures other (fun _ last => other.Recasts bytes last) other.Balks) :
    Joint movable context beyond
      (fun _ after last => after.face = site.face ∧ after.Mirrors movable context last)
      (action site) (action other) := by
  unfold Action.Ensures at ha hl
  generalize action site = result at ha
  generalize action other = result' at hl
  cases result' with
  | error stop last => exact .refused (h.isImmovable hl)
  | ok b last =>
    cases result with
    | error stop after => exact absurd ha h.not_balks
    | ok a after => exact .done ⟨ha.face_eq, h.recast ha hl⟩

end Joint

namespace Action.Transparent

variable {action : Action Site α} {next : α → Action Site β}

theorem pure {a : α} : (Pure.pure a : Action Site α).Transparent movable context beyond :=
  fun _ _ h => .done h

theorem bind (h : action.Transparent movable context beyond)
    (hn : ∀ a, (next a).Transparent movable context beyond) :
    (action >>= next).Transparent movable context beyond :=
  fun site other hm => (h site other hm).bind fun a after last hm' => hn a after last hm'

theorem discard (h : action.Transparent movable context beyond) :
    (Functor.discard action).Transparent movable context beyond := h.bind fun _ => .pure

end Action.Transparent

end StreamBuffer
