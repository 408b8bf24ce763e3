import StreamBuffer.Proofs.Calls

/-!
# Sound sites

A site is sound if its buffer is flat, its storage backed and its view sound. An action moves a site
by motions of its view, and stops only where the device of the storage refuses.
-/

namespace StreamBuffer

def Cursors.Relocates (cursors others : Cursors) : Prop :=
  others = cursors ∨ ∃ plan : Plan, others = plan.settled cursors

theorem Cursors.Polled.relocates {cursors others : Cursors} {geometry : Geometry} {room : Nat}
    (h : cursors.Polled geometry room others) : cursors.Relocates others := by
  cases h with
  | direct | declined => exact .inl rfl
  | copied => exact .inr ⟨_, rfl⟩

inductive Cursors.Followed (cursors : Cursors) (decision : Decision) : Bool → Cursors → Prop where
  | planned {plan : Plan} (hd : decision = .planned plan) :
      Followed cursors decision true (plan.settled cursors)
  | declined (hd : ∀ plan, decision ≠ .planned plan) : Followed cursors decision false cursors

namespace Cursors.Relocates

variable {cursors others : Cursors}

theorem written_eq (h : cursors.Relocates others) : others.written = cursors.written := by
  rcases h with rfl | ⟨plan, rfl⟩ <;> rfl

theorem maxLookBack_eq (h : cursors.Relocates others) :
    others.maxLookBack = cursors.maxLookBack := by
  rcases h with rfl | ⟨plan, rfl⟩ <;> rfl

theorem readers_eq_nil_iff (h : cursors.Relocates others) :
    others.readers = [] ↔ cursors.readers = [] := by
  rcases h with rfl | ⟨plan, rfl⟩
  · rfl
  · exact List.map_eq_nil_iff

end Cursors.Relocates

namespace Site

def view (site : Site) : View := ⟨site.buffer.cursors, site.readable⟩

structure Sound (site : Site) : Prop extends Solid site where
  flat : site.buffer.geometry.mapping = .single
  view : site.view.Sound site.buffer.geometry.capacity site.buffer.geometry.itemSize

structure Keeps (site after : Site) : Prop where
  geometry_eq : after.buffer.geometry = site.buffer.geometry
  context_eq : after.buffer.storage.context = site.buffer.storage.context
  device_eq : after.buffer.storage.device? = site.buffer.storage.device?
  akin : site.machine.devices.Akin after.machine.devices
  backed : after.buffer.storage.Backed after.machine.devices site.buffer.geometry.bytes

structure Moves (site : Site) (terms : Terms) (sent : Sent) (after : Site) :
    Prop extends Keeps site after where
  path : Path terms site.buffer.geometry.capacity site.buffer.geometry.itemSize site.view
    sent after.view

/-- The device refused. What was done before stays done. -/
structure Stopped (site : Site) (terms : Terms) (stop : Stop) (after : Site) : Prop where
  moves : ∃ sent, site.Moves terms sent after
  refuses : site.buffer.storage.Refuses site.machine.devices stop

variable {terms : Terms} {site mid after : Site} {sent data : Sent} {stop : Stop} {α β : Type}

namespace Sound

theorem coherent (h : site.Sound) : site.buffer.cursors.Coherent site.buffer.geometry.capacity :=
  h.view.coherent

theorem counted (h : site.Sound) : site.buffer.cursors.Counted := h.view.counted

theorem delayed (h : site.Sound) :
    site.buffer.cursors.maxDelay + site.buffer.geometry.capacity < Word.limit := h.view.delayed

theorem capacity_lt (h : site.Sound) : site.buffer.geometry.capacity < Word.limit := by
  have := h.measured.twice_le
  have := h.coherent.writeIndex_lt
  omega

end Sound

/-! ## Sequences -/

theorem Sound.keeps (h : site.Sound) : site.Keeps site := ⟨rfl, rfl, rfl, .refl _, h.backed⟩

theorem Sound.moves (h : site.Sound) : site.Moves terms .nothing site := ⟨h.keeps, .refl⟩

theorem Keeps.trans (h : site.Keeps mid) (hn : mid.Keeps after) : site.Keeps after :=
  ⟨hn.geometry_eq.trans h.geometry_eq, hn.context_eq.trans h.context_eq,
    hn.device_eq.trans h.device_eq, h.akin.trans hn.akin, h.geometry_eq ▸ hn.backed⟩

theorem Moves.trans (h : site.Moves terms sent mid) (hn : mid.Moves terms data after) :
    site.Moves terms (sent.andThen data) after := by
  refine ⟨h.toKeeps.trans hn.toKeeps, h.path.trans ?_⟩
  rw [← h.geometry_eq]
  exact hn.path

theorem Moves.sound (h : site.Sound) (hm : site.Moves terms sent after) : after.Sound := by
  obtain ⟨⟨hg, _, _, _, hb⟩, hp⟩ := hm
  refine ⟨⟨hg ▸ h.measured, hg ▸ hb⟩, hg ▸ h.flat, ?_⟩
  rw [hg]
  exact hp.sound h.view

theorem Moves.stopped (h : site.Moves terms sent mid) (hs : mid.Stopped terms stop after) :
    site.Stopped terms stop after := by
  obtain ⟨⟨data, hm⟩, number, hd, hr⟩ := hs
  refine ⟨⟨_, h.trans hm⟩, number, h.device_eq ▸ hd, ?_⟩
  cases hr with
  | faulty transfer hf =>
    rw [h.akin.name_eq]
    exact .faulty transfer (h.akin.faulty_eq number ▸ hf)
  | immovable length hf =>
    rw [h.akin.name_eq]
    exact .immovable length (h.akin.moves_eq number ▸ hf)

def Takes (site : Site) (terms : Terms) (action : Action Site α) (done : α → Sent → Site → Prop) :
    Prop :=
  action.Ensures site (fun a after => ∃ sent, site.Moves terms sent after ∧ done a sent after)
    (site.Stopped terms)

namespace Takes

variable {action : Action Site α} {next : α → Action Site β}
variable {done : α → Sent → Site → Prop} {post : β → Sent → Site → Prop}

theorem bind (h : site.Takes terms action done)
    (hn : ∀ a sent mid, site.Moves terms sent mid → done a sent mid →
      mid.Takes terms (next a) fun b data after => post b (sent.andThen data) after) :
    site.Takes terms (action >>= next) post :=
  Action.Ensures.bind h fun a mid ⟨sent, hm, hd⟩ => (hn a sent mid hm hd).mono
    (fun _ _ ⟨data, hm', hp⟩ => ⟨sent.andThen data, hm.trans hm', hp⟩) fun _ _ hs => hm.stopped hs

theorem mono {done' : α → Sent → Site → Prop} (h : site.Takes terms action done)
    (hd : ∀ a sent after, site.Moves terms sent after → done a sent after → done' a sent after) :
    site.Takes terms action done' :=
  Action.Ensures.mono h (fun a after ⟨sent, hm, hp⟩ => ⟨sent, hm, hd a sent after hm hp⟩)
    fun _ _ hs => hs

theorem pure (h : site.Sound) {a : α} (hd : done a .nothing site) :
    site.Takes terms (Pure.pure a : Action Site α) done :=
  Action.Ensures.pure ⟨.nothing, h.moves, hd⟩

theorem map (ht : site.Takes terms action done) (h : site.Sound) {f : α → β}
    (hd : ∀ a sent after, done a sent after → post (f a) sent after) :
    site.Takes terms (action >>= fun a => Pure.pure (f a)) post := by
  refine ht.bind fun a sent mid hm hs => .pure (hm.sound h) ?_
  rw [Sent.andThen_nothing]
  exact hd a sent mid hs

end Takes

/-- On the host there is nobody to refuse anything. -/
theorem Solid.unrefused (h : site.Solid) (hc : site.buffer.storage.context = .hostToHost) :
    ¬ site.buffer.storage.Refuses site.machine.devices stop := by
  rintro ⟨number, hd, _⟩
  rw [h.backed.device?_host hc] at hd
  cases hd

theorem Takes.answers {action : Action Site α} {done : α → Sent → Site → Prop}
    (ht : site.Takes terms action done) (h : site.Sound)
    (hc : site.buffer.storage.context = .hostToHost) :
    ∃ a after, action site = .ok a after ∧ ∃ sent, site.Moves terms sent after ∧
    done a sent after :=
  Action.Ensures.finishes
    (Action.Ensures.mono ht (fun _ _ hd => hd) fun _ _ hs => h.toSolid.unrefused hc hs.refuses)

/-! ## Cursors alone -/

/-- The cursors are set; only the tags and the journal may differ besides. -/
structure Turns (site : Site) (cursors : Cursors) (after : Site) : Prop where
  geometry_eq : after.buffer.geometry = site.buffer.geometry
  storage_eq : after.buffer.storage = site.buffer.storage
  cursors_eq : after.buffer.cursors = cursors
  devices_eq : after.machine.devices = site.machine.devices

abbrev Same (site after : Site) : Prop := site.Turns site.buffer.cursors after

theorem Same.refl (site : Site) : site.Same site := ⟨rfl, rfl, rfl, rfl⟩

namespace Turns

variable {cursors others : Cursors}

theorem trans (h : site.Turns cursors mid) (hn : mid.Turns others after) :
    site.Turns others after :=
  ⟨hn.geometry_eq.trans h.geometry_eq, hn.storage_eq.trans h.storage_eq, hn.cursors_eq,
    hn.devices_eq.trans h.devices_eq⟩

theorem view_eq (h : site.Turns cursors after) : after.view = ⟨cursors, site.readable⟩ := by
  simp only [view, readable, h.storage_eq, h.cursors_eq, h.devices_eq]

theorem keeps (h : site.Turns cursors after) (hs : site.Sound) : site.Keeps after := by
  refine ⟨h.geometry_eq, by rw [h.storage_eq], by rw [h.storage_eq], h.devices_eq ▸ .refl _, ?_⟩
  rw [h.storage_eq, h.devices_eq]
  exact hs.backed

theorem moves (h : site.Turns cursors after) (hs : site.Sound)
    (hm : Motion terms site.buffer.geometry.capacity site.buffer.geometry.itemSize site.view data
      ⟨cursors, site.readable⟩) : site.Moves terms data after :=
  ⟨h.keeps hs, .single (h.view_eq ▸ hm)⟩

end Turns

theorem Same.trans (h : site.Same mid) (hn : mid.Same after) : site.Same after :=
  Turns.trans h (h.cursors_eq ▸ hn)

theorem Same.moves (h : site.Same after) (hs : site.Sound) : site.Moves terms .nothing after :=
  ⟨h.keeps hs, h.view_eq ▸ .refl⟩

theorem forM_log_spec (events : List Event) (site : Site) :
    (events.forM log).Ensures site (fun _ after => site.Same after) fun _ _ => False := by
  induction events generalizing site with
  | nil => exact Same.refl site
  | cons event rest ih =>
    have hfirst : site.Same
        { site with machine := site.machine.log site.buffer.owner.name event } :=
      ⟨rfl, rfl, rfl, rfl⟩
    exact Action.Ensures.mono (ih _) (fun _ _ hs => hfirst.trans hs) fun _ _ hf => hf

/-! ## Relocations -/

theorem Recasts.keeps {bytes : Bytes} (h : site.Recasts bytes after) : site.Keeps after :=
  ⟨h.geometry_eq, h.shows.context_eq, h.shows.device_eq, h.shows.akin, h.shows.backed⟩

theorem Recasts.view_eq {bytes : Bytes} (h : site.Recasts bytes after) :
    after.view = ⟨site.buffer.cursors, bytes⟩ := by
  unfold view
  rw [h.cursors_eq, h.readable_eq]

theorem Recasts.spoils {bytes : Bytes} (h : site.Sound) (hr : site.Recasts bytes after)
    (terms : Terms) :
    site.Moves terms none after := by
  refine ⟨hr.keeps, ?_⟩
  rw [hr.view_eq]
  exact .single (.spoil (hr.size_eq h.toSolid))

theorem Balks.stopped (h : site.Sound) (hb : site.Balks stop after) (terms : Terms) :
    site.Stopped terms stop after := by
  obtain ⟨⟨bytes, hr⟩, hrefuses⟩ := hb
  exact ⟨⟨_, hr.spoils h terms⟩, hrefuses⟩

theorem carryOut_views (h : site.Sound) {plan : Plan}
    (ha : plan.Admissible site.buffer.cursors site.buffer.geometry.capacity) :
    (carryOut plan).Ensures site
      (fun _ after => site.Keeps after ∧ after.view = ⟨plan.settled site.buffer.cursors,
        plan.relocate site.buffer.geometry.itemSize site.buffer.cursors.writeIndex site.readable⟩)
      site.Balks := by
  obtain ⟨event, hsettle⟩ := plan.settle_eq h.coherent h.counted h.capacity_lt ha
  unfold carryOut
  apply Action.Ensures.get_bind
  apply Action.Ensures.bind (moveAll_spec h.toSolid (plan.moves_fit h.coherent.toOrdered ha))
  intro _ mid hd
  have hk := hd.keeps
  refine .lift_bind hsettle ⟨⟨hk.geometry_eq, hk.context_eq, hk.device_eq, hk.akin, hk.backed⟩, ?_⟩
  change View.mk (plan.settled site.buffer.cursors) mid.readable = _
  rw [hd.readable_eq]
  rfl

theorem carryOut_spec (h : site.Sound) {plan : Plan}
    (ha : plan.Admissible site.buffer.cursors site.buffer.geometry.capacity) :
    site.Takes terms (carryOut plan) fun _ sent after =>
      sent = .nothing ∧ after.buffer.cursors = plan.settled site.buffer.cursors := by
  apply (carryOut_views h ha).mono
  · rintro _ after ⟨hk, hv⟩
    refine ⟨.nothing, ⟨hk, ?_⟩, rfl, congrArg View.cursors hv⟩
    rw [hv]
    exact .single (.relocate ha)
  · exact fun _ _ hb => hb.stopped h terms

theorem follow_spec (h : site.Sound) {decision : Decision} (hd : ∀ plan, decision = .planned plan →
    plan.Admissible site.buffer.cursors site.buffer.geometry.capacity) :
    site.Takes terms (follow decision) fun moved sent after =>
      sent = .nothing ∧ site.buffer.cursors.Followed decision moved after.buffer.cursors := by
  cases decision with
  | idle => exact .pure h ⟨rfl, .declined nofun⟩
  | blocked event => exact ⟨.nothing, Same.moves ⟨rfl, rfl, rfl, rfl⟩ h, rfl, .declined nofun⟩
  | planned plan =>
    apply (carryOut_spec h (hd plan rfl)).bind
    rintro _ sent mid hm ⟨hs, hc⟩
    exact .pure (hm.sound h) ⟨by rw [hs]; rfl, hc ▸ .planned rfl⟩

end Site

end StreamBuffer
