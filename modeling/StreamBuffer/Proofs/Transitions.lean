import StreamBuffer.Proofs.Retry

/-!
# What an act can do to the cursors

Whatever the state of a buffer and whether an act finishes or stops: it relocates the cursors at
most once, before anything else, and then they go through movements. Each movement is one of the
cursor functions that gave a result. What the callers keep to is left open, as `Limits`.
-/

namespace StreamBuffer

open Relation

structure Limits where
  /-- The writer moves on by these items. -/
  write : Cursors → Nat → Prop
  /-- A reader consumes these items. -/
  read : Cursors → Reader → Nat → Prop
  /-- This look-back and this delay are declared. -/
  declare : Cursors → Nat → Nat → Prop
  /-- Input may be asked for at a position and from a supply that no reader has. -/
  madeUp : Prop

namespace Cursors

inductive Decided (limits : Limits) (geometry : Geometry) (cursors : Cursors) : Plan → Prop where
  | history {plan : Plan} (hneeded : cursors.needsHistory geometry = .ok true)
      (hplan : cursors.planHistory geometry = .ok (.planned plan)) :
      Decided limits geometry cursors plan
  | input {plan : Plan} {reader : Reader} {required supply : Nat} (hr : reader ∈ cursors.readers)
      (hs : cursors.supply geometry reader = .ok supply)
      (hplan : cursors.planInput required supply reader.readIndex = .ok (.planned plan)) :
      Decided limits geometry cursors plan
  | wish {plan : Plan} {required available readIndex : Nat} (hm : limits.madeUp)
      (hplan : cursors.planInput required available readIndex = .ok (.planned plan)) :
      Decided limits geometry cursors plan
  | output {plan : Plan} {multiple : Nat} {force : Bool}
      (hplan : cursors.planOutput geometry multiple force = .ok (.planned plan)) :
      Decided limits geometry cursors plan

inductive Relocated (limits : Limits) (geometry : Geometry) (cursors : Cursors) :
    Cursors → Prop where
  | stay : Relocated limits geometry cursors cursors
  | settle {plan : Plan} {others : Cursors} {event : Event} (hflat : geometry.mapping = .single)
      (hd : cursors.Decided limits geometry plan) (he : plan.settle cursors = .ok (others, event)) :
      Relocated limits geometry cursors others

inductive Movement (limits : Limits) (geometry : Geometry) (cursors : Cursors) :
    Cursors → Prop where
  | write {others : Cursors} {items : Nat} {event : Event} (h : limits.write cursors items)
      (he : cursors.advanceWriter geometry.capacity items = .ok (others, event)) :
      Movement limits geometry cursors others
  | read {others : Cursors} {reader : Reader} {items : Nat} {event : Event}
      (hr : reader ∈ cursors.readers)
      (h : limits.read cursors reader items)
      (he : cursors.advanceReader geometry.capacity reader items = .ok (others, event)) :
      Movement limits geometry cursors others
  | refresh {others : Cursors} (he : cursors.refreshTail = .ok others) :
      Movement limits geometry cursors others
  | attach {others : Cursors} {history delay id : Nat} {events : List Event}
      (h : limits.declare cursors (history - 1) delay)
      (he : cursors.attach geometry history delay = .ok (id, others, events)) :
        Movement limits geometry cursors others
  | raise {others : Cursors} {history delay : Nat} {events : List Event}
      (hh : history ≤ geometry.capacity)
      (h : limits.declare cursors (history - 1) delay)
      (he : cursors.raise geometry (history - 1) delay = .ok (others, events)) :
      Movement limits geometry cursors others
  | detach {others : Cursors} {id : Nat} {event : Event}
      (he : cursors.detach id = .ok (others, event)) :
      Movement limits geometry cursors others
  | declare {others : Cursors} {reader : Reader} {delay : Nat} {events : List Event}
      (hr : reader ∈ cursors.readers)
      (h : limits.declare cursors 0 delay)
      (he : cursors.declareDelay geometry reader delay = .ok (others, events)) :
      Movement limits geometry cursors others

end Cursors

namespace Site

variable {limits : Limits} {site mid after : Site} {α β : Type}

/-- At most the cursors differ, and these were at most relocated. -/
structure Shifts (limits : Limits) (site after : Site) : Prop where
  face_eq : after.face = { site.face with cursors := after.buffer.cursors }
  relocated : site.buffer.cursors.Relocated limits site.buffer.geometry after.buffer.cursors

/-- What pruning behind the readers makes of a site. There has to be a reader that moved, and the
reach of the pruning has to be a word. -/
inductive Swept (site : Site) : Site → Prop where
  | alone (hr : site.buffer.cursors.readers = []) : Swept site site
  | still (hs : site.buffer.cursors.slowest = site.buffer.lastSlowest) : Swept site site
  | fault {fault : Fault}
      (he : site.buffer.tags.prune site.buffer.lastSlowest site.buffer.cursors.maxDelay
        site.buffer.geometry.capacity = .error fault) : Swept site site
  | prune {pruned : Nat × Tag.Index} (hr : site.buffer.cursors.readers ≠ [])
      (hs : site.buffer.cursors.slowest ≠ site.buffer.lastSlowest)
      (ht : site.buffer.tags.prune site.buffer.lastSlowest site.buffer.cursors.maxDelay
        site.buffer.geometry.capacity = .ok pruned) : Swept site (site.prunedTo pruned)

def Asked (limits : Limits) (site after : Site) : Prop :=
  ∃ mid, site.Swept mid ∧ mid.Shifts limits after

structure Walks (limits : Limits) (site after : Site) : Prop where
  geometry_eq : after.buffer.geometry = site.buffer.geometry
  lastSlowest_eq : after.buffer.lastSlowest = site.buffer.lastSlowest
  path : ReflTransGen (Cursors.Movement limits site.buffer.geometry) site.buffer.cursors
    after.buffer.cursors

/-- **What an act can do.** The cursors are relocated at most, and then they go through
movements. -/
structure Passes (limits : Limits) (site after : Site) : Prop where
  geometry_eq : after.buffer.geometry = site.buffer.geometry
  lastSlowest_eq : after.buffer.lastSlowest = site.buffer.lastSlowest ∨
    site.buffer.cursors.readers ≠ [] ∧ after.buffer.lastSlowest = site.buffer.cursors.slowest
  path : ∃ mid, site.buffer.cursors.Relocated limits site.buffer.geometry mid ∧
    ReflTransGen (Cursors.Movement limits site.buffer.geometry) mid after.buffer.cursors

/-! ## Sequences -/

theorem Shifts.refl (site : Site) : site.Shifts limits site := ⟨rfl, .stay⟩

theorem Walks.of_face (h : after.face = site.face) : site.Walks limits after := by
  have hcursors : after.buffer.cursors = site.buffer.cursors := congrArg Face.cursors h
  refine ⟨congrArg Face.geometry h, congrArg Face.lastSlowest h, ?_⟩
  rw [hcursors]

theorem Walks.trans (h : site.Walks limits mid) (hn : mid.Walks limits after) :
    site.Walks limits after := by
  refine ⟨hn.geometry_eq.trans h.geometry_eq, hn.lastSlowest_eq.trans h.lastSlowest_eq,
    h.path.trans ?_⟩
  rw [← h.geometry_eq]
  exact hn.path

theorem Walks.passes (h : site.Walks limits after) : site.Passes limits after :=
  ⟨h.geometry_eq, .inl h.lastSlowest_eq, _, .stay, h.path⟩

theorem Asked.passes (h : site.Asked limits mid) (hn : mid.Walks limits after) :
    site.Passes limits after := by
  obtain ⟨first, hfirst, hshift⟩ := h
  have hkept : first.buffer.geometry = site.buffer.geometry ∧
      first.buffer.cursors = site.buffer.cursors ∧
      (first.buffer.lastSlowest = site.buffer.lastSlowest ∨
        site.buffer.cursors.readers ≠ [] ∧
        first.buffer.lastSlowest = site.buffer.cursors.slowest) := by
    cases hfirst with
    | alone | still | fault => exact ⟨rfl, rfl, .inl rfl⟩
    | prune hr => exact ⟨rfl, rfl, .inr ⟨hr, rfl⟩⟩
  obtain ⟨hgeometry, hcursors, hslowest⟩ := hkept
  have hmid : mid.buffer.geometry = site.buffer.geometry :=
    (congrArg Face.geometry hshift.face_eq).trans hgeometry
  have hlast : after.buffer.lastSlowest = first.buffer.lastSlowest :=
    hn.lastSlowest_eq.trans (congrArg Face.lastSlowest hshift.face_eq)
  have hrelocated := hshift.relocated
  have hpath := hn.path
  rw [hgeometry, hcursors] at hrelocated
  rw [hmid] at hpath
  rw [← hlast] at hslowest
  exact ⟨hn.geometry_eq.trans hmid, hslowest, _, hrelocated, hpath⟩

/-- What relocations bring about or keep, and movements keep. -/
theorem Passes.keeps {holds : Cursors → Prop} (hp : site.Passes limits after)
    (hr : ∀ mid, site.buffer.cursors.Relocated limits site.buffer.geometry mid → holds mid)
    (hm : ∀ mid others, mid.Movement limits site.buffer.geometry others → holds mid →
      holds others) :
    holds after.buffer.cursors := by
  obtain ⟨_, _, mid, hrelocated, hpath⟩ := hp
  generalize after.buffer.cursors = last at hpath
  induction hpath with
  | refl => exact hr mid hrelocated
  | tail _ hmoved ih => exact hm _ _ hmoved ih

theorem Shifts.passes (h : site.Shifts limits after) : site.Passes limits after :=
  ⟨congrArg Face.geometry h.face_eq, .inl (congrArg Face.lastSlowest h.face_eq), _, h.relocated,
    .refl⟩

/-! ## Rules -/

section Rules

variable {holds : Site → Prop}

theorem isFlat_leaves {next : Bool → Action Site β}
    (hflat : site.buffer.geometry.mapping = .single → (next true).Leaves site holds)
    (hring : site.buffer.geometry.mapping = .double → (next false).Leaves site holds) :
    (isFlat >>= next).Leaves site holds := by
  change (next (site.buffer.geometry.mapping == .single)).Leaves site holds
  cases hm : site.buffer.geometry.mapping with
  | single => exact hflat hm
  | double => exact hring hm

theorem forM_log_face (events : List Event) (site : Site) :
    (events.forM log).Leaves site fun after => after.face = site.face := by
  induction events generalizing site with
  | nil => exact .pure rfl
  | cons event rest ih => exact (ih _).mono fun _ he => he

end Rules

/-! ## Relocations -/

theorem moveItems_face (site : Site) (move : ItemMove) :
    (moveItems move).Leaves site fun after => after.face = site.face := by
  apply (moveItems_wish site move).mono
  · rintro _ _ ⟨region, others, _, rfl⟩
    rfl
  · rintro _ _ ⟨rfl, _⟩
    rfl

theorem forM_moveItems_face (moves : List ItemMove) (site : Site) :
    (moves.forM moveItems).Leaves site fun after => after.face = site.face := by
  induction moves generalizing site with
  | nil => exact .pure rfl
  | cons move rest ih =>
    exact .bind (moveItems_face site move) (fun _ he => he) fun _ mid he => (ih mid).mono
      fun _ hr => hr.trans he

theorem carryOut_shifts {plan : Plan} (hflat : site.buffer.geometry.mapping = .single)
    (hd : site.buffer.cursors.Decided limits site.buffer.geometry plan) :
    (carryOut plan).Leaves site (site.Shifts limits) := by
  have hstay : ∀ {mid : Site}, mid.face = site.face → site.Shifts limits mid := by
    intro mid he
    have hcursors : mid.buffer.cursors = site.buffer.cursors := congrArg Face.cursors he
    exact ⟨by rw [he, hcursors]; rfl, hcursors ▸ .stay⟩
  unfold carryOut
  refine .get_bind (.bind (forM_moveItems_face _ site) (fun _ => hstay) fun _ mid he => ?_)
  refine .lift_bind (hstay he) fun ⟨others, event⟩ hsettle => ?_
  refine ⟨?_, .settle hflat hd hsettle⟩
  change { mid.face with cursors := others } = { site.face with cursors := others }
  rw [he]

theorem follow_shifts {decision : Decision} (hflat : site.buffer.geometry.mapping = .single)
    (hd : ∀ plan, decision = .planned plan →
      site.buffer.cursors.Decided limits site.buffer.geometry plan) :
    (follow decision).Leaves site (site.Shifts limits) := by
  cases decision with
  | idle => exact .pure (.refl site)
  | blocked event => exact ⟨rfl, .stay⟩
  | planned plan => exact (carryOut_shifts hflat (hd plan rfl)).map

theorem flatSpace_shifts (hflat : site.buffer.geometry.mapping = .single) :
    flatSpace.Leaves site (site.Shifts limits) := by
  unfold flatSpace
  refine .get_bind (.lift_bind (.refl site) fun needed hneeded => ?_)
  cases needed with
  | false => exact .get_bind (.lift (.refl site))
  | true =>
    refine .lift_bind (.refl site) fun decision hplan => ?_
    refine .bind (follow_shifts hflat fun plan he => .history hneeded (he ▸ hplan))
      (fun _ hs => hs) ?_
    intro moved mid hs
    cases moved with
    | false => exact .pure hs
    | true => exact .get_bind (.lift hs)

theorem pruneBehindReaders_swept (hr : site.buffer.cursors.readers ≠ []) :
    pruneBehindReaders.Ensures site
    (fun _ mid => site.Swept mid) fun _ mid => mid = site ∧ site.Swept mid := by
  by_cases hs : site.buffer.cursors.slowest = site.buffer.lastSlowest
  · unfold Action.Ensures
    rw [pruneBehindReaders_same hs]
    exact .still hs
  cases ht : site.buffer.tags.prune site.buffer.lastSlowest site.buffer.cursors.maxDelay
      site.buffer.geometry.capacity with
  | ok pruned =>
    unfold Action.Ensures
    rw [pruneBehindReaders_eq hs ht]
    exact .prune hr hs ht
  | error fault =>
    have hprune : (prune site.buffer.lastSlowest).Ensures site (fun _ _ => False)
        fun _ mid => mid = site ∧ site.Swept mid := by
      unfold prune
      refine .get_bind (.lift_cases (fun _ => ⟨rfl, .fault ht⟩) fun pruned hok => ?_)
      cases ht.symm.trans hok
    have hdiscard : (Functor.discard (prune site.buffer.lastSlowest)).Ensures site
        (fun _ _ => False)
        fun _ mid => mid = site ∧ site.Swept mid := Action.Ensures.bind hprune fun _ _ hf => hf.elim
    unfold pruneBehindReaders
    refine .get_bind ?_
    dsimp only
    rw [if_pos hs]
    exact Action.Ensures.bind hdiscard fun _ _ hf => hf.elim

theorem space_asks (site : Site) : space.Leaves site (site.Asked limits) := by
  unfold space
  refine .get_bind ?_
  dsimp only
  split
  · rename_i hempty
    exact .lift ⟨site, .alone (List.isEmpty_iff.mp hempty), .refl site⟩
  rename_i hempty
  have hr : site.buffer.cursors.readers ≠ [] := by simpa using hempty
  have hswept : pruneBehindReaders.Ensures site (fun _ mid => site.Swept mid)
      fun _ => site.Asked limits := by
    apply (pruneBehindReaders_swept hr).mono (fun _ _ hs => hs)
    rintro _ mid ⟨rfl, hs⟩
    exact ⟨_, hs, .refl _⟩
  apply Action.Ensures.bind hswept
  intro _ mid hs
  have hgeometry : mid.buffer.geometry = site.buffer.geometry := by cases hs <;> rfl
  have hasked : ∀ after, mid.Shifts limits after → site.Asked limits after :=
    fun after hshift => ⟨mid, hs, hshift⟩
  rw [← hgeometry]
  cases hm : mid.buffer.geometry.mapping with
  | single => exact (flatSpace_shifts hm).mono hasked
  | double => exact Action.Leaves.get_bind (.lift (hasked mid (.refl mid)))

/-! ## Production -/

theorem store_face (site : Site) (data : Bytes) :
    (store data).Leaves site fun after => after.face = site.face := by
  change _ = site.face
  rfl

theorem onMachine_face (site : Site) (action : Action Machine α) :
    (onMachine action).Leaves site fun after => after.face = site.face := by
  unfold Action.Leaves Action.Ensures onMachine
  cases action site.machine <;> rfl

theorem post_face (site : Site) (items : Nat) :
    (post items).Leaves site fun after => after.face = site.face := by
  unfold post
  refine .get_bind (.lift_bind rfl fun offset _ => .lift_bind rfl fun length _ => ?_)
  exact .bind (onMachine_face site _) (fun _ he => he) fun _ _ he => he

theorem advance_walks {items : Nat} (h : limits.write site.buffer.cursors items) :
    (advance items).Leaves site (site.Walks limits) := by
  unfold advance
  refine .get_bind (.lift_bind (.of_face rfl) fun ⟨others, event⟩ he => ?_)
  exact ⟨rfl, rfl, .single (.write h he)⟩

theorem write_walks {items : Nat} {source : Nat → UInt8}
    (h : limits.write site.buffer.cursors items) :
    (write items source).Leaves site (site.Walks limits) := by
  unfold write
  refine .get_bind (.bind (store_face site _) (fun _ => .of_face) fun _ stored hstored => ?_)
  refine .bind (post_face stored items) (fun _ hp => .of_face (hp.trans hstored))
    fun _ posted hposted => ?_
  have hface := hposted.trans hstored
  have hcursors : posted.buffer.cursors = site.buffer.cursors := congrArg Face.cursors hface
  exact (advance_walks (hcursors ▸ h)).mono fun _ hw => (Walks.of_face hface).trans hw

/-! ## Readers -/

theorem attach_walks {history delay : Nat}
    (h : limits.declare site.buffer.cursors (history - 1) delay) :
    (attach history delay).Leaves site (site.Walks limits) := by
  unfold attach
  refine .get_bind (.attempt_bind (.of_face rfl) fun ⟨id, others, events⟩ he => .modify_bind ?_)
  have hset : site.Walks limits { site with buffer.cursors := others } :=
    ⟨rfl, rfl, .single (.attach h he)⟩
  exact .bind (forM_log_face events _) (fun _ hf => hset.trans (.of_face hf)) fun _ _ hf =>
    .pure (hset.trans (.of_face hf))

theorem raiseHistory_walks {history delay : Nat}
    (h : limits.declare site.buffer.cursors (history - 1) delay) :
    (raiseHistory history delay).Leaves site (site.Walks limits) := by
  unfold raiseHistory
  refine .get_bind
    (.attempt_bind (.of_face rfl) fun _ hcheck => .lift_bind (.of_face rfl)
      fun ⟨others, events⟩ he =>
    .modify_bind ?_)
  have hset : site.Walks limits { site with buffer.cursors := others } :=
    ⟨rfl, rfl, .single (.raise (Cursors.le_of_checkHistory hcheck) h he)⟩
  exact (forM_log_face events _).mono fun _ hf => hset.trans (.of_face hf)

theorem detach_walks (site : Site) (id : Nat) : (detach id).Leaves site (site.Walks limits) := by
  have hreader : (Functor.discard (reader id)).Leaves site fun mid => mid = site :=
    reader_leaves rfl fun _ _ => .pure rfl
  unfold detach
  refine .bind hreader (by rintro _ rfl; exact .of_face rfl) ?_
  rintro _ _ rfl
  refine .get_bind (.lift_bind (.of_face rfl) fun ⟨others, event⟩ he => ?_)
  exact ⟨rfl, rfl, .single (.detach he)⟩

theorem read_walks {id items : Nat}
    (h : ∀ reader, site.buffer.cursors.reader? id = some reader →
      limits.read site.buffer.cursors reader items) :
    (read id items).Leaves site (site.Walks limits) := by
  unfold read
  refine reader_leaves (.of_face rfl)
    fun reader hr => .get_bind (.lift_bind (.of_face rfl) fun ⟨moved, event⟩ he => ?_)
  have hmoved := Cursors.Movement.read (Cursors.mem_of_reader? hr).1 (h reader hr) he
  refine .modify_bind
    (.modify_bind (.lift_bind ⟨rfl, rfl, .single hmoved⟩ fun others hrefresh => ?_))
  exact ⟨rfl, rfl, .tail (.single hmoved) (.refresh hrefresh)⟩

theorem declareDelay_walks {id delay : Nat} (h : limits.declare site.buffer.cursors 0 delay) :
    (declareDelay id delay).Leaves site (site.Walks limits) := by
  unfold declareDelay
  refine reader_leaves (.of_face rfl)
    fun reader hr => .get_bind (.lift_bind (.of_face rfl) fun ⟨others, events⟩ he =>
    .modify_bind ?_)
  have hset : site.Walks limits { site with buffer.cursors := others } :=
    ⟨rfl, rfl, .single (.declare (Cursors.mem_of_reader? hr).1 h he)⟩
  exact (forM_log_face events _).mono fun _ hf => hset.trans (.of_face hf)

/-! ## Tags -/

theorem prune_walks (site : Site) (time : Nat) : (prune time).Leaves site (site.Walks limits) := by
  unfold prune
  refine .get_bind (.lift_bind (.of_face rfl) fun tags _ => .modify_bind ?_)
  split
  · exact ⟨rfl, rfl, .refl⟩
  · exact ⟨rfl, rfl, .refl⟩

theorem tags_walks (site : Site) (id start stop consumer : Nat) :
    (tags id start stop consumer).Leaves site (site.Walks limits) := by
  unfold tags
  exact reader_leaves (.of_face rfl) fun _ _ => .get_bind (.lift (.of_face rfl))

/-! ## Blocked stages -/

theorem isInputBlockedAt_walks (site : Site) (required readIndex : Nat) :
    (isInputBlockedAt required readIndex).Leaves site (site.Walks limits) := by
  unfold isInputBlockedAt
  exact .get_bind (isFlat_leaves (fun _ => .pure (.of_face rfl)) fun _ => .pure (.of_face rfl))

theorem isInputBlocked_walks (site : Site) (id required : Nat) :
    (isInputBlocked id required).Leaves site (site.Walks limits) := by
  unfold isInputBlocked
  refine isFlat_leaves (fun _ => ?_) fun _ => .pure (.of_face rfl)
  exact reader_leaves (.of_face rfl)
    fun reader _ => isInputBlockedAt_walks site required reader.readIndex

theorem isOutputBlocked_asks (hflat : site.buffer.geometry.mapping = .single) (multiple : Nat) :
    (isOutputBlocked multiple).Leaves site (site.Asked limits) := by
  unfold isOutputBlocked
  exact isFlat_leaves (fun _ => (space_asks site).map)
    fun hring => absurd (hflat.symm.trans hring) nofun

/-- Storage that is mapped twice is not asked for room. -/
theorem isOutputBlocked_same (hring : site.buffer.geometry.mapping = .double) (multiple : Nat) :
    (isOutputBlocked multiple).Leaves site fun after => after = site := by
  unfold isOutputBlocked
  exact isFlat_leaves (fun hflat => absurd (hflat.symm.trans hring) nofun) fun _ => .pure rfl

theorem unblockInputAt_shifts {required available readIndex : Nat}
    (h : ∀ plan, site.buffer.cursors.planInput required available readIndex = .ok (.planned plan) →
      site.buffer.cursors.Decided limits site.buffer.geometry plan) :
    (unblockInputAt required available readIndex).Leaves site (site.Shifts limits) := by
  unfold unblockInputAt
  refine isFlat_leaves (fun hflat => .get_bind (.lift_bind (.refl site) fun decision hd => ?_))
    fun _ => .pure (.refl site)
  exact follow_shifts hflat fun plan he => h plan (he ▸ hd)

theorem unblockInput_shifts (site : Site) (id required : Nat) :
    (unblockInput id required).Leaves site (site.Shifts limits) := by
  unfold unblockInput
  refine isFlat_leaves (fun _ => reader_leaves (.refl site) fun reader hr => ?_)
    fun _ => .pure (.refl site)
  refine supply_leaves (.refl site) fun same supply hsame hs => ?_
  cases hr.symm.trans hsame
  exact unblockInputAt_shifts fun plan hplan => .input (Cursors.mem_of_reader? hr).1 hs hplan

theorem unblockOutput_shifts (site : Site) (multiple : Nat) (force : Bool) :
    (unblockOutput multiple force).Leaves site (site.Shifts limits) := by
  unfold unblockOutput
  refine isFlat_leaves (fun hflat => .get_bind (.lift_bind (.refl site) fun decision hd => ?_))
    fun _ => .pure (.refl site)
  exact follow_shifts hflat fun plan he => .output (he ▸ hd)

end Site

/-! ## Acts -/

variable {limits : Limits} {site : Site}

def Call.Within (limits : Limits) (site : Site) : Call → Prop
  | advance items =>
    ∀ room mid, Site.space site = .ok room mid → limits.write mid.buffer.cursors (min items room)
  | produce items multiple _ => ∀ room mid, Site.space site = .ok room mid →
      limits.write mid.buffer.cursors (min items room - min items room % max multiple 1)
  | write items _ => limits.write site.buffer.cursors items
  | attach history delay | raiseHistory history delay =>
    limits.declare site.buffer.cursors (history - 1) delay
  | declareDelay _ delay => limits.declare site.buffer.cursors 0 delay
  | read id items => ∀ reader, site.buffer.cursors.reader? id = some reader →
      limits.read site.buffer.cursors reader items
  | unblockInputAt .. => limits.madeUp
  | _ => True

def Act.Within (limits : Limits) (site : Site) : Act → Prop
  | call c => c.Within limits site
  | move items => limits.write site.buffer.cursors items
  | store _ | post _ | fault .. => True

theorem Site.space_leaves {α : Type} {next : Nat → Action Site α}
    (hn : ∀ room mid, Site.space site = .ok room mid → (next room).Leaves mid (mid.Walks limits)) :
    (space >>= next).Leaves site (site.Passes limits) := by
  have hasks : space.Leaves site (site.Asked limits) := space_asks site
  unfold Action.Leaves Action.Ensures
  cases he : space site with
  | ok room mid =>
    rw [Action.bind_of_ok _ he]
    exact (hn room mid he).mono fun _ hw => (hasks.of_ok he).passes hw
  | error stop mid =>
    rw [Action.bind_of_error _ he]
    exact (hasks.of_error he).passes (.of_face rfl)

theorem Call.passes {call : Call} (h : call.Within limits site) :
    call.perform.Leaves site (site.Passes limits) := by
  have walks : ∀ {α} {action : Action Site α} {f : α → Answer},
      action.Leaves site (site.Walks limits) →
      (action >>= fun a => pure (f a)).Leaves site (site.Passes limits) :=
      fun hw => (hw.mono fun _ => Site.Walks.passes).map
  have shifts : ∀ {α} {action : Action Site α} {f : α → Answer},
      action.Leaves site (site.Shifts limits) →
      (action >>= fun a => pure (f a)).Leaves site (site.Passes limits) :=
      fun hs => (hs.mono fun _ => Site.Shifts.passes).map
  cases call with
  | space => exact ((Site.space_asks site).mono fun _ ha => ha.passes (.of_face rfl)).map
  | advance items =>
    exact Site.space_leaves fun room mid he => (Site.advance_walks (h room mid he)).map
  | produce items multiple source =>
    unfold perform Site.produce
    simp only [bind_assoc]
    exact Site.space_leaves fun room mid he => .bind (Site.write_walks (h room mid he))
      (fun _ hw => hw) fun _ _ => .pure
  | write items source => exact walks (Site.write_walks h)
  | attach history delay => exact walks (Site.attach_walks h)
  | raiseHistory history delay => exact walks (Site.raiseHistory_walks h)
  | detach id => exact walks (Site.detach_walks site id)
  | read id items => exact walks (Site.read_walks h)
  | supply id =>
    exact Site.supply_leaves (Site.Shifts.refl site).passes
      fun _ _ _ _ => .pure (Site.Shifts.refl site).passes
  | declareDelay id delay => exact walks (Site.declareDelay_walks h)
  | unblockInput id required => exact shifts (Site.unblockInput_shifts site id required)
  | unblockInputAt required available readIndex =>
    exact shifts (Site.unblockInputAt_shifts fun plan hp => .wish h hp)
  | unblockOutput multiple force => exact shifts (Site.unblockOutput_shifts site multiple force)
  | isInputBlocked id required => exact walks (Site.isInputBlocked_walks site id required)
  | isInputBlockedAt required readIndex =>
    exact walks (Site.isInputBlockedAt_walks site required readIndex)
  | isOutputBlocked multiple =>
    cases hm : site.buffer.geometry.mapping with
    | single =>
      exact ((Site.isOutputBlocked_asks hm multiple).mono fun _ ha => ha.passes (.of_face rfl)).map
    | double =>
      exact walks
        ((Site.isOutputBlocked_same hm multiple).mono fun _ he => .of_face (congrArg Site.face he))
  | tag new => exact Site.Walks.passes ⟨rfl, rfl, .refl⟩
  | untag old consumer => exact Site.Walks.passes ⟨rfl, rfl, .refl⟩
  | prune time => exact walks (Site.prune_walks site time)
  | tags id start stop consumer => exact walks (Site.tags_walks site id start stop consumer)
  | setDone done => exact Site.Walks.passes ⟨rfl, rfl, .refl⟩

theorem Act.passes {act : Act} (h : act.Within limits site) :
    site.Passes limits (act.after site) := by
  apply Act.after_of
  cases act with
  | call call => exact Call.passes h
  | store data =>
    exact ((Site.store_face site data).mono fun _ hf => (Site.Walks.of_face hf).passes).map
  | post items =>
    exact ((Site.post_face site items).mono fun _ hf => (Site.Walks.of_face hf).passes).map
  | move items => exact ((Site.advance_walks h).mono fun _ => Site.Walks.passes).map
  | fault device on => exact Site.Walks.passes (.of_face rfl)

end StreamBuffer
