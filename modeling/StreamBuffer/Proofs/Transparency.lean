import StreamBuffer.Proofs.Allocation
import StreamBuffer.Proofs.Mirrors

/-!
# Transparency of the context

Every operation does the same on a site and on one that mirrors it, so a run of calls cannot tell in
which context a buffer is. Only where a caller makes up a run that reaches past the end of the
region do the two refuse it each in the name of its own domain.
-/

namespace StreamBuffer

variable {movable beyond : Prop} {context : Context} {site other : Site} {β : Type}

namespace Site

/-! ## Relocations -/

theorem moveItems_joint (h : site.Mirrors movable context other) {move : ItemMove}
    (hf : move.Fits site.buffer.geometry.capacity ∨
      beyond ∧ move.Overhangs site.buffer.geometry.capacity) :
    Joint movable context beyond
      (fun _ after last => after.face = site.face ∧ after.Mirrors movable context last)
      (moveItems move site) (moveItems move other) := by
  rcases hf with hf | ⟨ho, hf⟩
  · have hl := moveItems_spec h.solid_other (h.geometry_eq ▸ hf)
    rw [h.geometry_eq, h.readable_eq] at hl
    exact .of_recasts h (moveItems_spec h.solid hf) hl
  · rw [moveItems_beyond h.solid hf, moveItems_beyond h.solid_other (h.geometry_eq ▸ hf),
      h.geometry_eq, h.host, h.context_eq]
    exact .stopped (.range ho ..) h

theorem moveAll_joint {moves : List ItemMove} (h : site.Mirrors movable context other)
    (hf : ∀ move ∈ moves, move.Fits site.buffer.geometry.capacity ∨
      beyond ∧ move.Overhangs site.buffer.geometry.capacity) :
    Joint movable context beyond
      (fun _ after last => after.face = site.face ∧ after.Mirrors movable context last)
      (moves.forM moveItems site) (moves.forM moveItems other) := by
  induction moves generalizing site other with
  | nil => exact .done ⟨rfl, h⟩
  | cons move rest ih =>
    refine (moveItems_joint h (hf move (List.mem_cons_self ..))).bind ?_
    intro _ after last ⟨hface, hm⟩
    have hg : after.buffer.geometry = site.buffer.geometry := congrArg Face.geometry hface
    refine (ih hm ?_).mono fun _ _ _ hd => ⟨hd.1.trans hface, hd.2⟩
    intro m hr
    rw [hg]
    exact hf m (List.mem_cons_of_mem _ hr)

theorem carryOut_joint {plan : Plan} {reach : Nat} (h : site.Mirrors movable context other)
    (hc : plan.Contained site.buffer.cursors site.buffer.geometry.capacity reach) :
    Joint movable context (site.buffer.geometry.capacity < reach)
      (fun _ after last => after.Mirrors movable context last) (carryOut plan site)
        (carryOut plan other) := by
  unfold carryOut
  refine .get_bind ?_
  dsimp only
  rw [h.cursors_eq]
  refine (moveAll_joint h (hc.moves h.bounded)).bind ?_
  intro _ after last ⟨hface, hm⟩
  have hg : after.buffer.geometry = site.buffer.geometry := congrArg Face.geometry hface
  refine .lift_bind hm ?_
  intro ⟨cursors, event⟩ he
  refine .done (hm.turn rfl rfl rfl rfl rfl ?_ (hg ▸ hc.settle h.bounded he))
  exact congrArg (fun face : Face => { face with cursors }) hm.face_eq

theorem follow_joint {decision : Decision} {reach : Nat} (h : site.Mirrors movable context other)
    (hd : ∀ plan, decision = .planned plan →
      plan.Contained site.buffer.cursors site.buffer.geometry.capacity reach) :
    Joint movable context (site.buffer.geometry.capacity < reach)
      (fun _ after last => after.Mirrors movable context last) (follow decision site)
        (follow decision other) := by
  cases decision with
  | idle => exact .done h
  | blocked event => exact .done (h.turn rfl rfl rfl rfl rfl h.face_eq h.bounded)
  | planned plan => exact (carryOut_joint h (hd plan rfl)).bind fun _ _ _ hm => .done hm

/-! ## Events and cursors -/

theorem log_transparent (event : Event) : (log event).Transparent movable context beyond :=
  fun _ _ h => .done (h.turn rfl rfl rfl rfl rfl h.face_eq h.bounded)

theorem trace_transparent (event : Event) : (trace event).Transparent movable context beyond :=
  fun _ _ h => .done (h.turn rfl rfl rfl rfl rfl h.face_eq h.bounded)

theorem forM_log_transparent (events : List Event) :
    (events.forM log).Transparent movable context beyond := by
  induction events with
  | nil => exact .pure
  | cons event rest ih => exact (log_transparent event).bind fun _ => ih

theorem setCursors_joint {cursors : Cursors} (h : site.Mirrors movable context other)
    (hb : cursors.Bounded site.buffer.geometry.capacity) :
    Joint movable context beyond
      (fun _ after last => after.buffer.geometry = site.buffer.geometry ∧
        after.Mirrors movable context last)
      (setCursors cursors site) (setCursors cursors other) :=
  .done
    ⟨rfl, h.turn rfl rfl rfl rfl rfl
      (congrArg (fun face : Face => { face with cursors }) h.face_eq) hb⟩

/-! ## Room -/

theorem prune_transparent (time : Nat) : (prune time).Transparent movable context beyond := by
  intro site other h
  unfold prune
  refine .get_bind ?_
  dsimp only
  rw [h.tags_eq, h.cursors_eq, h.geometry_eq]
  refine .lift_bind h ?_
  rintro ⟨removed, tags⟩ _
  refine .modify_bind ?_
  have hm : Mirrors movable context { site with buffer := { site.buffer with tags } }
      { other with buffer := { other.buffer with tags } } :=
    h.turn rfl rfl rfl rfl rfl
      (congrArg (fun face : Face => { face with tags }) h.face_eq) h.bounded
  split
  · exact (log_transparent _ _ _ hm).bind fun _ _ _ hm => .done hm
  · exact .done hm

theorem pruneBehindReaders_transparent : pruneBehindReaders.Transparent movable context beyond := by
  intro site other h
  have hslowest : other.buffer.lastSlowest = site.buffer.lastSlowest :=
    congrArg Face.lastSlowest h.face_eq
  unfold pruneBehindReaders
  refine .get_bind ?_
  rw [h.cursors_eq, hslowest]
  split
  · refine ((prune_transparent _).discard _ _ h).bind ?_
    intro _ after last hm
    exact .done (hm.turn rfl rfl rfl rfl rfl
      (congrArg (fun face : Face => { face with lastSlowest := site.buffer.cursors.slowest })
        hm.face_eq) hm.bounded)
  · exact .done h

theorem flatRoom_transparent (capacity : Nat) :
    (get >>= fun site : Site => liftM (site.buffer.cursors.flatRoom capacity) :
      Action Site Nat).Transparent movable context beyond := by
  intro site other h
  refine .get_bind ?_
  rw [h.cursors_eq]
  exact .lift h fun _ _ => h

theorem flatSpace_transparent : flatSpace.Transparent movable context beyond := by
  intro site other h
  unfold flatSpace
  refine .get_bind ?_
  dsimp only
  rw [h.cursors_eq, h.geometry_eq]
  refine .lift_bind h ?_
  intro needed _
  cases needed with
  | false => exact flatRoom_transparent _ _ _ h
  | true =>
    refine .lift_bind h ?_
    intro decision hd
    have hfollow := follow_joint h fun plan hp =>
      h.bounded.planHistory (hd.trans (congrArg Except.ok hp))
    refine (hfollow.widen fun hlt => absurd hlt (Nat.lt_irrefl _)).bind ?_
    intro moved after last hm
    cases moved with
    | false => exact .done hm
    | true => exact flatRoom_transparent _ _ _ hm

theorem space_transparent : space.Transparent movable context beyond := by
  intro site other h
  unfold space
  refine .get_bind ?_
  rw [h.cursors_eq, h.geometry_eq]
  split
  · exact .lift h fun _ _ => h
  · refine (pruneBehindReaders_transparent _ _ h).bind ?_
    intro _ after last hm
    cases site.buffer.geometry.mapping with
    | single => exact flatSpace_transparent _ _ hm
    | double => exact .lift hm fun _ _ => hm

/-! ## Production -/

theorem advance_transparent (items : Nat) : (advance items).Transparent movable context beyond := by
  intro site other h
  unfold advance
  refine .get_bind ?_
  dsimp only
  rw [h.cursors_eq, h.geometry_eq]
  refine .lift_bind h ?_
  intro ⟨cursors, event⟩ he
  refine (setCursors_joint h (h.bounded.advanceWriter he)).bind ?_
  intro _ after last hm
  exact trace_transparent _ _ _ hm.2

theorem write_joint (h : site.Mirrors movable context other) (items : Nat) (source : Nat → UInt8)
    (hroom : site.buffer.cursors.writeIndex + items ≤ site.buffer.geometry.capacity) :
    Joint movable context beyond (fun _ after last => after.Mirrors movable context last)
      (write items source site) (write items source other) := by
  have hroom' : other.buffer.cursors.writeIndex + items ≤ other.buffer.geometry.capacity := by
    rw [h.cursors_eq, h.geometry_eq]
    exact hroom
  have hl := deposit_spec h.solid_other source hroom'
  have hoffset : other.buffer.writeOffset = site.buffer.writeOffset := by
    unfold Buffer.writeOffset
    rw [h.cursors_eq, h.geometry_eq]
  rw [write_eq source hroom, write_eq source hroom', h.geometry_eq]
  rw [h.geometry_eq, h.readable_eq, hoffset] at hl
  refine (Joint.of_recasts h (deposit_spec h.solid source hroom) hl).bind ?_
  intro _ after last hm
  exact advance_transparent items _ _ hm.2

theorem produce_joint (h : site.Mirrors movable context other) (items multiple : Nat)
    (source : Nat → UInt8)
    (hroom : ∀ room after, space site = .ok room after →
      after.buffer.cursors.writeIndex + (min items room - min items room % max multiple 1) ≤
        after.buffer.geometry.capacity) :
    Joint movable context beyond (fun _ after last => after.Mirrors movable context last)
      (produce items multiple source site) (produce items multiple source other) := by
  unfold produce
  refine (space_transparent _ _ h).run_bind ?_
  intro room after last hrun hm
  exact (write_joint hm _ source (hroom room after hrun)).bind fun _ _ _ hm => .done hm

/-! ## Readers -/

theorem reader_bind {post : β → Site → Site → Prop} {next next' : Reader → Action Site β}
    (h : site.Mirrors movable context other) (id : Nat)
    (hn : ∀ reader, site.buffer.cursors.reader? id = some reader →
      Joint movable context beyond post (next reader site) (next' reader other)) :
    Joint movable context beyond post ((reader id >>= next) site)
      ((reader id >>= next') other) := by
  have hid : other.buffer.id = site.buffer.id := congrArg Face.id h.face_eq
  have hreader : Joint movable context beyond
      (fun reader after last => after = site ∧ last = other ∧
        site.buffer.cursors.reader? id = some reader)
      (reader id site) (reader id other) := by
    unfold reader
    refine .get_bind ?_
    rw [h.cursors_eq, hid]
    cases hr : site.buffer.cursors.reader? id with
    | some reader => exact .done ⟨rfl, rfl, rfl⟩
    | none => exact .stopped (.same _) h
  refine hreader.bind ?_
  intro reader after last ⟨ha, hl, hr⟩
  rw [ha, hl]
  exact hn reader hr

theorem attach_transparent (history delay : Nat) :
    (attach history delay).Transparent movable context beyond := by
  intro site other h
  unfold attach
  refine .get_bind ?_
  dsimp only
  rw [h.cursors_eq, h.geometry_eq]
  refine .attempt_bind h ?_
  intro ⟨id, cursors, events⟩ he
  refine (setCursors_joint h (h.bounded.attach he)).bind ?_
  intro _ after last hm
  exact ((forM_log_transparent events).bind fun _ => .pure) _ _ hm.2

theorem raiseHistory_transparent (history delay : Nat) :
    (raiseHistory history delay).Transparent movable context beyond := by
  intro site other h
  unfold raiseHistory
  refine .get_bind ?_
  dsimp only
  rw [h.cursors_eq, h.geometry_eq]
  refine .attempt_bind h ?_
  intro _ hcheck
  refine .lift_bind h ?_
  intro ⟨cursors, events⟩ he
  have hlt := h.bounded.writeIndex_lt
  have hl : history - 1 < site.buffer.geometry.capacity := by
    have := Cursors.le_of_checkHistory hcheck
    omega
  refine (setCursors_joint h (h.bounded.raise hl he)).bind ?_
  intro _ after last hm
  exact forM_log_transparent events _ _ hm.2

theorem detach_transparent (id : Nat) : (detach id).Transparent movable context beyond := by
  intro site other h
  unfold detach
  have hreader : Joint movable context beyond
      (fun _ after last => after.Mirrors movable context last)
      (Functor.discard (reader id) site) (Functor.discard (reader id) other) :=
    reader_bind h id fun _ _ => .done h
  refine hreader.bind ?_
  intro _ after last hm
  refine .get_bind ?_
  rw [hm.cursors_eq]
  refine .lift_bind hm ?_
  intro ⟨cursors, event⟩ he
  refine (setCursors_joint hm (hm.bounded.detach he)).bind ?_
  intro _ after last hm
  exact log_transparent _ _ _ hm.2

theorem read_transparent (id items : Nat) : (read id items).Transparent movable context beyond := by
  intro site other h
  unfold read
  refine reader_bind h id ?_
  intro reader hr
  refine .get_bind ?_
  dsimp only
  rw [h.cursors_eq, h.geometry_eq]
  refine .lift_bind h ?_
  intro ⟨cursors, event⟩ he
  have hbounded := h.bounded.advanceReader he
  refine .modify_bind (.modify_bind (.lift_bind ?_ ?_))
  · exact h.turn rfl rfl rfl rfl rfl
      (congrArg (fun face : Face => { face with cursors }) h.face_eq) hbounded
  · intro refreshed hr
    exact .done (h.turn rfl rfl rfl rfl rfl
      (congrArg (fun face : Face => { face with cursors := refreshed }) h.face_eq)
        (hbounded.refreshTail hr))

theorem supply_bind {post : β → Site → Site → Prop} {next next' : Nat → Action Site β}
    (h : site.Mirrors movable context other) (id : Nat)
    (hn : ∀ reader supply, site.buffer.cursors.reader? id = some reader →
      site.buffer.supply reader = .ok supply →
      Joint movable context beyond post (next supply site) (next' supply other)) :
    Joint movable context beyond post ((supply id >>= next) site)
      ((supply id >>= next') other) := by
  have hsupply : ∀ reader, other.buffer.supply reader = site.buffer.supply reader := by
    intro reader
    unfold Buffer.supply
    rw [h.cursors_eq, h.geometry_eq]
  unfold supply
  simp only [bind_assoc]
  refine reader_bind h id ?_
  intro reader hr
  refine .get_bind ?_
  rw [hsupply]
  exact .lift_bind h fun supply hs => hn reader supply hr hs

theorem declareDelay_transparent (id delay : Nat) :
    (declareDelay id delay).Transparent movable context beyond := by
  intro site other h
  unfold declareDelay
  refine reader_bind h id ?_
  intro reader hr
  refine .get_bind ?_
  dsimp only
  rw [h.cursors_eq, h.geometry_eq]
  refine .lift_bind h ?_
  intro ⟨cursors, events⟩ he
  refine (setCursors_joint h (h.bounded.declareDelay (Cursors.mem_of_reader? hr).1 he)).bind ?_
  intro _ after last hm
  exact forM_log_transparent events _ _ hm.2

/-! ## Blocked stages -/

theorem isFlat_bind {post : β → Site → Site → Prop} {next next' : Bool → Action Site β}
    (h : site.Mirrors movable context other)
    (hn : Joint movable context beyond post (next (site.buffer.geometry.mapping == .single) site)
      (next' (site.buffer.geometry.mapping == .single) other)) :
    Joint movable context beyond post ((isFlat >>= next) site) ((isFlat >>= next') other) := by
  change Joint movable context beyond post _
    (next' (other.buffer.geometry.mapping == .single) other)
  rw [h.geometry_eq]
  exact hn

theorem isInputBlockedAt_transparent (required readIndex : Nat) :
    (isInputBlockedAt required readIndex).Transparent movable context beyond := by
  intro site other h
  unfold isInputBlockedAt
  refine .get_bind ?_
  rw [h.cursors_eq, h.geometry_eq]
  refine isFlat_bind h ?_
  exact .done h

theorem isInputBlocked_transparent (id required : Nat) :
    (isInputBlocked id required).Transparent movable context beyond := by
  intro site other h
  unfold isInputBlocked
  refine isFlat_bind h ?_
  split
  · refine reader_bind h id ?_
    intro reader hr
    exact isInputBlockedAt_transparent _ _ _ _ h
  · exact .done h

theorem isOutputBlocked_transparent (multiple : Nat) :
    (isOutputBlocked multiple).Transparent movable context beyond := by
  intro site other h
  unfold isOutputBlocked
  refine isFlat_bind h ?_
  split
  · exact (space_transparent.bind fun _ => .pure) _ _ h
  · exact .done h

theorem unblockInputAt_joint (h : site.Mirrors movable context other)
    (required available readIndex : Nat) :
    Joint movable context (site.buffer.geometry.capacity < readIndex + available)
      (fun _ after last => after.Mirrors movable context last)
      (unblockInputAt required available readIndex site)
        (unblockInputAt required available readIndex other) := by
  unfold unblockInputAt
  refine isFlat_bind h ?_
  split
  · refine .get_bind ?_
    rw [h.cursors_eq]
    refine .lift_bind h ?_
    intro decision hd
    have hfollow := follow_joint h
      fun plan hp => h.bounded.planInput (hd.trans (congrArg Except.ok hp))
    exact hfollow.widen fun ho => by omega
  · exact .done h

theorem unblockInput_transparent (id required : Nat) :
    (unblockInput id required).Transparent movable context beyond := by
  intro site other h
  unfold unblockInput
  refine isFlat_bind h ?_
  split
  · rename_i hflat
    refine reader_bind h id ?_
    intro reader hr
    refine supply_bind h id ?_
    intro same supply hs hsupply
    rw [hr] at hs
    cases hs
    have hend : reader.readIndex + supply ≤ site.buffer.geometry.capacity := by
      unfold Buffer.supply Cursors.supply at hsupply
      rw [eq_of_beq hflat] at hsupply
      exact h.bounded.flatSupply (Cursors.mem_of_reader? hr).1 hsupply
    exact (unblockInputAt_joint h required supply reader.readIndex).widen fun ho => by omega
  · exact .done h

theorem unblockOutput_transparent (multiple : Nat) (force : Bool) :
    (unblockOutput multiple force).Transparent movable context beyond := by
  intro site other h
  unfold unblockOutput
  refine isFlat_bind h ?_
  split
  · refine .get_bind ?_
    rw [h.cursors_eq, h.geometry_eq]
    refine .lift_bind h ?_
    intro decision hd
    have hfollow := follow_joint h fun plan hp =>
      Cursors.contained_of_planOutput (hd.trans (congrArg Except.ok hp))
    exact hfollow.widen fun hlt => absurd hlt (Nat.lt_irrefl _)
  · exact .done h

/-! ## Tags -/

theorem tag_transparent (new : Tag) : (tag new).Transparent movable context beyond :=
  fun _ _ h => .done (h.turn rfl rfl rfl rfl rfl
    (congrArg (fun face : Face => { face with tags := face.tags.insert new }) h.face_eq) h.bounded)

theorem untag_transparent (old : Tag) (consumer : Nat) :
    (untag old consumer).Transparent movable context beyond := by
  intro site other h
  unfold untag
  refine .get_bind ?_
  rw [h.tags_eq]
  exact .modify_bind (.done (h.turn rfl rfl rfl rfl rfl
    (congrArg (fun face : Face => { face with tags := (site.buffer.tags.hide old consumer).2 })
      h.face_eq) h.bounded))

theorem tags_transparent (id start stop consumer : Nat) :
    (tags id start stop consumer).Transparent movable context beyond := by
  intro site other h
  unfold tags
  refine reader_bind h id ?_
  intro reader hr
  refine .get_bind ?_
  rw [h.tags_eq]
  exact .lift h fun _ _ => h

theorem setDone_transparent (done : Bool) : (setDone done).Transparent movable context beyond :=
  fun _ _ h => .done (h.turn rfl rfl rfl rfl rfl
    (congrArg (fun face : Face => { face with done }) h.face_eq) h.bounded)

end Site

/-! ## Calls -/

namespace Call

def outcome (call : Call) (site : Site) : Except Stop Answer :=
  match call.perform site with
  | .ok answer _ => .ok answer
  | .error stop _ => .error stop

def Fits (call : Call) (site : Site) : Prop :=
  match call with
  | write items _ => site.buffer.cursors.writeIndex + items ≤ site.buffer.geometry.capacity
  | produce items multiple _ => ∀ room after, Site.space site = .ok room after →
    after.buffer.cursors.writeIndex + (min items room - min items room % max multiple 1) ≤
      after.buffer.geometry.capacity
  | _ => True

/-- The caller speaks of a run that reaches past the end of the region. -/
def Overreaches (call : Call) (site : Site) : Prop :=
  match call with
  | unblockInputAt _ available readIndex => site.buffer.geometry.capacity < readIndex + available
  | _ => False

theorem perform_joint {call : Call} (h : site.Mirrors movable context other) (hf : call.Fits site) :
    Joint movable context (call.Overreaches site)
      (fun _ after last => after.Mirrors movable context last)
      (call.perform site) (call.perform other) := by
  cases call with
  | space => exact (Site.space_transparent.bind fun _ => .pure) _ _ h
  | advance items =>
    exact (Site.space_transparent.bind fun _ => (Site.advance_transparent _).bind fun _ => .pure) _
      _ h
  | produce items multiple source =>
    exact (Site.produce_joint h items multiple source hf).bind fun _ _ _ hm => .done hm
  | write items source => exact (Site.write_joint h items source hf).bind fun _ _ _ hm => .done hm
  | attach history delay => exact ((Site.attach_transparent _ _).bind fun _ => .pure) _ _ h
  | raiseHistory history delay =>
    exact ((Site.raiseHistory_transparent _ _).bind fun _ => .pure) _ _ h
  | detach id => exact ((Site.detach_transparent _).bind fun _ => .pure) _ _ h
  | read id items => exact ((Site.read_transparent _ _).bind fun _ => .pure) _ _ h
  | supply id => exact Site.supply_bind h id fun _ _ _ _ => .done h
  | declareDelay id delay => exact ((Site.declareDelay_transparent _ _).bind fun _ => .pure) _ _ h
  | unblockInput id required =>
    exact ((Site.unblockInput_transparent _ _).bind fun _ => .pure) _ _ h
  | unblockInputAt required available readIndex =>
    exact (Site.unblockInputAt_joint h _ _ _).bind fun _ _ _ hm => .done hm
  | unblockOutput multiple force =>
    exact ((Site.unblockOutput_transparent _ _).bind fun _ => .pure) _ _ h
  | isInputBlocked id required =>
    exact ((Site.isInputBlocked_transparent _ _).bind fun _ => .pure) _ _ h
  | isInputBlockedAt required readIndex =>
    exact ((Site.isInputBlockedAt_transparent _ _).bind fun _ => .pure) _ _ h
  | isOutputBlocked multiple =>
    exact ((Site.isOutputBlocked_transparent _).bind fun _ => .pure) _ _ h
  | tag new => exact ((Site.tag_transparent _).bind fun _ => .pure) _ _ h
  | untag old consumer => exact ((Site.untag_transparent _ _).bind fun _ => .pure) _ _ h
  | prune time => exact ((Site.prune_transparent _).bind fun _ => .pure) _ _ h
  | tags id start stop consumer => exact ((Site.tags_transparent _ _ _ _).bind fun _ => .pure) _ _ h
  | setDone done => exact ((Site.setDone_transparent _).bind fun _ => .pure) _ _ h

end Call

/-! ## Runs -/

/-- The outcomes are the same, or two ranges left two regions. -/
inductive Outcomes (beyond : Prop) (context : Context) :
    Except Stop Answer → Except Stop Answer → Prop where
  | answered (answer : Answer) : Outcomes beyond context (.ok answer) (.ok answer)
  | stopped {stop halt : Stop} (hs : stop.Matches beyond context halt) :
      Outcomes beyond context (.error stop) (.error halt)

/-- Nothing but the journal and the place of the bytes tells the sites apart. -/
structure Site.Alike (site other : Site) : Prop where
  face_eq : other.face = site.face
  readable_eq : other.readable = site.readable

/-- The calls find both sites alike and have the same outcomes, up to one that the second device
cannot do. -/
def InStep (movable : Prop) (context : Context) : List Call → Site → Site → Prop
  | [], site, other => site.Alike other
  | call :: rest, site, other => site.Alike other ∧ (call.Fits site →
      Outcomes (call.Overreaches site) context (call.outcome site) (call.outcome other) ∧
          InStep movable context rest (call.after site) (call.after other) ∨
        ∃ stop, call.outcome other = .error stop ∧ stop.IsImmovable movable)

theorem Site.Mirrors.inStep (h : site.Mirrors movable context other) (calls : List Call) :
    InStep movable context calls site other := by
  induction calls generalizing site other with
  | nil => exact ⟨h.face_eq, h.readable_eq⟩
  | cons call rest ih =>
    refine ⟨⟨h.face_eq, h.readable_eq⟩, fun hf => ?_⟩
    have hjoint := call.perform_joint h hf
    unfold Call.outcome Call.after
    generalize call.perform site = result at hjoint
    generalize call.perform other = result' at hjoint
    cases hjoint with
    | done h => exact .inl ⟨.answered _, ih h⟩
    | stopped hs h => exact .inl ⟨.stopped hs, ih h⟩
    | refused h => exact .inr ⟨_, rfl, h⟩

def Request.inContext (request : Request) (context : Context) : Request :=
  { request with owner := { request.owner with context } }

variable {backend host : Backend} {request : Request} {id : Nat}
variable {machine machine' allocated allocated' : Machine}
variable {buffer twin : Buffer}

theorem Backend.Delivers.mirrors (hd : host.Delivers request id machine.devices buffer allocated)
    (hd' : backend.Delivers (request.inContext context) id machine'.devices twin allocated')
    (hh : request.owner.context = .hostToHost)
    (hfaulty : ∀ number, backend = .device number → (machine'.devices.get number).faulty = false) :
    Site.Mirrors (∀ number, backend = .device number →
      (machine'.devices.get number).supportsMove = true) context
      ⟨allocated, buffer⟩ ⟨allocated', twin⟩ := by
  have hg : twin.geometry = buffer.geometry :=
    Except.ok.inj (hd'.geometry_eq.symm.trans hd.geometry_eq)
  have hb : buffer.cursors = {} := hd.cursors_eq
  refine ⟨?_, ?_, hd.solid, hd'.solid, hd.provides.context_eq.trans hh, hd'.provides.context_eq, ?_,
    ?_⟩
  · rw [hd.face_eq, hd'.face_eq, hg]
  · refine hd'.provides.readable_eq.trans (Eq.trans ?_ hd.provides.readable_eq.symm)
    rw [hg]
  · change buffer.cursors.Bounded buffer.geometry.capacity
    rw [hb]
    exact ⟨hd.gives.capacity_pos, nofun, hd.gives.capacity_pos, nofun⟩
  · intro number hn
    have hbackend := hd'.provides.device_eq number hn
    change (allocated'.devices.get number).faulty = false ∧
      (_ → (allocated'.devices.get number).supportsMove = true)
    rw [hd'.provides.akin.faulty_eq, hd'.provides.akin.moves_eq]
    exact ⟨hfaulty number hbackend, fun hmoves => hmoves number hbackend⟩

/-- **Transparency.** No run of calls tells in which context a buffer is, as long as its device does
no worse than not to move: up to the first move that the device does not do, outcomes, cursors,
tags and the bytes that readers see are those of the host. -/
theorem context_is_transparent (hr : host.Ready machine.devices)
    (hr' : backend.Ready machine'.devices) (hh : request.owner.context = .hostToHost)
    (ha : Buffer.allocate host request id machine = .ok buffer allocated)
    (ha' : Buffer.allocate backend (request.inContext context) id machine' = .ok twin allocated')
    (hfaulty : ∀ number, backend = .device number → (machine'.devices.get number).faulty = false)
    (calls : List Call) :
    InStep (∀ number, backend = .device number → (machine'.devices.get number).supportsMove = true)
      context calls ⟨allocated, buffer⟩ ⟨allocated', twin⟩ := by
  have hdelivers := Buffer.allocate_delivers hr ha
  have hdelivers' := Buffer.allocate_delivers hr' ha'
  exact (hdelivers.mirrors hdelivers' hh hfaulty).inStep calls

def Machine.moving : Machine := { devices := [{ name := "emulated", moves := true }] }

def Request.short (context : Context) : Request :=
  { items := 4, itemSize := 1, owner := { context } }

/-- The reader meets the end of the region and what it has left is taken to the front, on the heap
as on a device. -/
theorem context_is_transparent_to_device :
    ∃ buffer twin allocated allocated',
      Buffer.allocate .heap (.short .hostToHost) 0 {} = .ok buffer allocated ∧
      Buffer.allocate (.device 0) (.short .hostToDevice) 0 .moving = .ok twin allocated' ∧
      InStep (∀ number, Backend.device 0 = .device number →
        (Machine.moving.devices.get number).supportsMove = true)
        .hostToDevice
        [.attach 1 0, .produce 3 1 fun i => i.toUInt8, .read 0 2, .unblockInput 0 2,
          .produce 2 1 fun _ => 9]
        ⟨allocated, buffer⟩ ⟨allocated', twin⟩ := by
  have hready : Backend.heap.Ready ({} : Machine).devices := trivial
  have hready' : (Backend.device 0).Ready Machine.moving.devices := ⟨by decide, nofun, by decide⟩
  have hallocate : ∃ buffer allocated, Buffer.allocate .heap (.short .hostToHost) 0 {} =
      .ok buffer allocated :=
    ⟨_, _, rfl⟩
  have hallocate' : ∃ twin allocated,
      Buffer.allocate (.device 0) (.short .hostToDevice) 0 .moving = .ok twin allocated :=
      ⟨_, _, rfl⟩
  obtain ⟨buffer, allocated, ha⟩ := hallocate
  obtain ⟨twin, allocated', ha'⟩ := hallocate'
  refine ⟨buffer, twin, allocated, allocated', ha, ha', ?_⟩
  refine context_is_transparent hready hready' rfl ha ha' ?_ _
  intro number hn
  cases hn
  rfl

/-- A range that leaves the region is refused in the name of the region's domain: this alone tells
one context from another. -/
theorem refusal_names_domain :
    ∃ buffer twin allocated allocated',
      Buffer.allocate .heap (.short .hostToHost) 0 {} = .ok buffer allocated ∧
      Buffer.allocate (.device 0) (.short .deviceToDevice) 0 .moving = .ok twin allocated' ∧
      let run (site : Site) := [.attach 1 0, .write 4 fun i => i.toUInt8, .read 0 3].foldl
        (fun site call => Call.after call site) site
      (Call.unblockInputAt 1 2 3).outcome (run ⟨allocated, buffer⟩) ≠
        (Call.unblockInputAt 1 2 3).outcome (run ⟨allocated', twin⟩) := by
  refine ⟨_, _, _, _, rfl, rfl, ?_⟩
  intro run h
  have hdomains :
      (Except.error (.error (.rangeExceedsRegion .copySource 3 2 .host 4)) : Except Stop Answer) =
      .error (.error (.rangeExceedsRegion .copySource 3 2 .device 4)) := h
  cases hdomains

end StreamBuffer
