import StreamBuffer.Error

/-!
# Reasoning about checked computations and actions

`Action.Ensures` says what holds after an action that finished and after one that stopped, and
`Action.Leaves` what holds after it either way. The rules take an action apart at its first step.
-/

namespace StreamBuffer

theorem bind_ok {ε α β : Type} {x : Except ε α} {f : α → Except ε β} {a : α} (h : x = .ok a) :
    (x >>= f) = f a := by
  subst h
  rfl

theorem bind_error {ε α β : Type} {x : Except ε α} {f : α → Except ε β} {e : ε} (h : x = .error e) :
    (x >>= f) = .error e := by
  subst h
  rfl

theorem bind_eq_ok {ε α β : Type} {x : Except ε α} {f : α → Except ε β} {b : β} :
    (x >>= f) = .ok b ↔ ∃ a, x = .ok a ∧ f a = .ok b := by
  cases x with
  | error e => exact ⟨nofun, fun ⟨_, h, _⟩ => nomatch h⟩
  | ok a => exact ⟨fun h => ⟨a, rfl, h⟩, fun ⟨_, h, hf⟩ => by cases h; exact hf⟩

theorem zip_map_self {α β : Type} {f : α → β} {l : List α} :
    l.zip (l.map f) = l.map fun a => (a, f a) := by
  rw [List.zip, List.zipWith_map_right, List.zipWith_self]

theorem mapM_eq_ok {ε α β : Type} {f : α → Except ε β} {g : α → β} : ∀ {l : List α},
    (∀ a ∈ l, f a = .ok (g a)) → l.mapM f = .ok (l.map g)
  | [], _ => rfl
  | a :: l, h => by
    rw [List.mapM_cons, h a (List.mem_cons_self ..),
      mapM_eq_ok fun b hb => h b (List.mem_cons_of_mem _ hb)]
    rfl

theorem anyM_eq_ok {ε α : Type} {f : α → Except ε Bool} {p : α → Bool} : ∀ {l : List α},
    (∀ a ∈ l, f a = .ok (p a)) → l.anyM f = .ok (l.any p)
  | [], _ => rfl
  | a :: l, h => by
    rw [List.anyM, h a (List.mem_cons_self ..),
      anyM_eq_ok fun b hb => h b (List.mem_cons_of_mem _ hb)]
    cases hp : p a <;> simp [hp, bind, Except.bind, pure, Except.pure]

@[simp] theorem liftM_ok {α : Type} (a : α) :
    (liftM (Except.ok a : Checked α) : Attempt α) = .ok a :=
  rfl

theorem liftM_eq_ok {α : Type} {x : Checked α} {a : α} :
    (liftM x : Attempt α) = .ok a ↔ x = .ok a := by
  cases x with
  | error fault => exact ⟨nofun, nofun⟩
  | ok b => exact ⟨fun h => by cases h; rfl, fun h => by cases h; rfl⟩

theorem liftM_ite_bind {α β : Type} {p : Prop} [Decidable p] {a : α} {fault : Fault}
    {f : α → Attempt β} :
    (liftM (if p then .ok a else .error fault : Checked α) >>= f) = if p then f a
      else .error (.fault fault) := by
  split <;> rfl

theorem guard_eq_ok {α : Type} {p : Prop} [Decidable p] {error : Error} {rest : Attempt α} {a : α} :
    (if p then (refuse error : Attempt PUnit) >>= fun _ => rest else rest) = .ok a ↔
    ¬ p ∧ rest = .ok a := by
  split
  · exact ⟨nofun, fun h => absurd ‹p› h.1⟩
  · exact ⟨fun h => ⟨‹¬ p›, h⟩, fun h => h.2⟩

namespace Action

variable {σ α β : Type}

/-- The action finishes in `done` or stops in `stopped`. -/
def Ensures (action : Action σ α) (s : σ) (done : α → σ → Prop) (stopped : Stop → σ → Prop) :
    Prop :=
  match action s with
  | .ok a t => done a t
  | .error stop t => stopped stop t

instance (action : Action σ α) (s : σ) (done : α → σ → Prop) (stopped : Stop → σ → Prop)
    [∀ a t, Decidable (done a t)] [∀ stop t, Decidable (stopped stop t)] :
    Decidable (action.Ensures s done stopped) :=
  match h : action s with
  | .ok a t => decidable_of_iff (done a t) (by unfold Ensures; rw [h])
  | .error stop t => decidable_of_iff (stopped stop t) (by unfold Ensures; rw [h])

namespace Ensures

variable {s : σ} {done mid : α → σ → Prop} {post : β → σ → Prop} {stopped : Stop → σ → Prop}
variable {action : Action σ α} {next : α → Action σ β}

theorem pure {a : α} (h : done a s) : Ensures (Pure.pure a : Action σ α) s done stopped := h

theorem bind (h : Ensures action s mid stopped)
    (hn : ∀ a t, mid a t → Ensures (next a) t post stopped) :
    Ensures (action >>= next) s post stopped := by
  unfold Ensures at h ⊢
  change match EStateM.bind action next s with | .ok a t => post a t | .error e t => stopped e t
  unfold EStateM.bind
  cases ha : action s with
  | ok a t =>
    rw [ha] at h
    exact hn a t h
  | error e t =>
    rw [ha] at h
    exact h

theorem mono {done' : α → σ → Prop} {stopped' : Stop → σ → Prop}
    (h : Ensures action s done stopped) (hd : ∀ a t, done a t → done' a t)
    (hs : ∀ e t, stopped e t → stopped' e t) : Ensures action s done' stopped' := by
  unfold Ensures at h ⊢
  cases ha : action s with
  | ok a t =>
    rw [ha] at h
    exact hd a t h
  | error e t =>
    rw [ha] at h
    exact hs e t h

theorem sure (h : Ensures action s mid fun _ _ => False) (hd : ∀ a t, mid a t → done a t) :
    Ensures action s done stopped := h.mono hd fun _ _ hf => hf.elim

theorem sure_bind (h : Ensures action s mid fun _ _ => False)
    (hn : ∀ a t, mid a t → Ensures (next a) t post stopped) :
    Ensures (action >>= next) s post stopped := bind (h.sure fun _ _ ht => ht) hn

theorem get_bind {next : σ → Action σ β} (h : Ensures (next s) s post stopped) :
    Ensures (get >>= next) s post stopped := h

theorem modify_bind {change : σ → σ} {next : PUnit → Action σ β}
    (h : Ensures (next ⟨⟩) (change s) post stopped) :
    Ensures (modify change >>= next) s post stopped := h

theorem ok_bind {a : α} {t : σ} (ha : action s = .ok a t) (h : Ensures (next a) t post stopped) :
    Ensures (action >>= next) s post stopped := by
  have hrun : Ensures action s (fun b u => b = a ∧ u = t) stopped := by
    unfold Ensures
    rw [ha]
    exact ⟨rfl, rfl⟩
  exact bind hrun fun _ _ ⟨hb, hu⟩ => hb ▸ hu ▸ h

theorem lift_bind {checked : Checked α} {a : α} (hc : checked = .ok a)
    (h : Ensures (next a) s post stopped) : Ensures (liftM checked >>= next) s post stopped := by
  subst hc
  exact h

theorem lift {checked : Checked α} {a : α} (hc : checked = .ok a) (h : done a s) :
    Ensures (liftM checked : Action σ α) s done stopped := by
  subst hc
  exact h

theorem attempt_bind {attempt : Attempt α} {a : α} (hc : attempt = .ok a)
    (h : Ensures (next a) s post stopped) : Ensures (liftM attempt >>= next) s post stopped := by
  subst hc
  exact h

theorem attempt_stop {attempt : Attempt α} {stop : Stop} (hc : attempt = .error stop)
    (h : stopped stop s) :
    Ensures (liftM attempt >>= next) s post stopped := by
  subst hc
  exact h

theorem lift_cases {checked : Checked α} (hs : ∀ fault, stopped (.fault fault) s)
    (hn : ∀ a, checked = .ok a → Ensures (next a) s post stopped) :
    Ensures (liftM checked >>= next) s post stopped := by
  cases checked with
  | ok a => exact hn a rfl
  | error fault => exact hs fault

theorem attempt_cases {attempt : Attempt α} (hs : ∀ stop, attempt = .error stop → stopped stop s)
    (hn : ∀ a, attempt = .ok a → Ensures (next a) s post stopped) :
    Ensures (liftM attempt >>= next) s post stopped := by
  cases attempt with
  | ok a => exact hn a rfl
  | error stop => exact hs stop rfl

theorem of_ok {a : α} {t : σ} (h : Ensures action s done stopped) (he : action s = .ok a t) :
    done a t := by
  unfold Ensures at h
  rw [he] at h
  exact h

theorem of_error {stop : Stop} {t : σ} (h : Ensures action s done stopped)
    (he : action s = .error stop t) : stopped stop t := by
  unfold Ensures at h
  rw [he] at h
  exact h

theorem both {done' : α → σ → Prop} {stopped' : Stop → σ → Prop} (h : Ensures action s done stopped)
    (h' : Ensures action s done' stopped') :
    Ensures action s (fun a t => done a t ∧ done' a t) fun e t => stopped e t ∧ stopped' e t := by
  unfold Ensures at h h' ⊢
  cases ha : action s with
  | ok a t =>
    rw [ha] at h h'
    exact ⟨h, h'⟩
  | error e t =>
    rw [ha] at h h'
    exact ⟨h, h'⟩

theorem finishes (h : Ensures action s done fun _ _ => False) :
    ∃ a t, action s = .ok a t ∧ done a t := by
  cases he : action s with
  | ok a t => exact ⟨a, t, rfl, h.of_ok he⟩
  | error stop t => exact (h.of_error he).elim

theorem stops (h : Ensures action s (fun _ _ => False) stopped) :
    ∃ stop t, action s = .error stop t ∧ stopped stop t := by
  cases he : action s with
  | ok a t => exact (h.of_ok he).elim
  | error stop t => exact ⟨stop, t, rfl, h.of_error he⟩

end Ensures

def Leaves (action : Action σ α) (s : σ) (holds : σ → Prop) : Prop :=
  action.Ensures s (fun _ t => holds t) fun _ t => holds t

namespace Leaves

variable {s : σ} {holds mid : σ → Prop} {action : Action σ α} {next : α → Action σ β}

theorem pure {a : α} (h : holds s) : (Pure.pure a : Action σ α).Leaves s holds := h

theorem mono (h : action.Leaves s mid) (hm : ∀ t, mid t → holds t) : action.Leaves s holds :=
  Ensures.mono h (fun _ => hm) fun _ => hm

theorem bind (h : action.Leaves s mid) (hm : ∀ t, mid t → holds t)
    (hn : ∀ a t, mid t → (next a).Leaves t holds) : (action >>= next).Leaves s holds :=
  Ensures.bind (Ensures.mono h (fun _ _ ht => ht) fun _ => hm) hn

theorem map (h : action.Leaves s holds) {f : α → β} :
    (action >>= fun a => Pure.pure (f a)).Leaves s holds := bind h (fun _ ht => ht) fun _ _ => pure

theorem get_bind {next : σ → Action σ β} (h : (next s).Leaves s holds) :
    (get >>= next).Leaves s holds :=
  h

theorem modify_bind {change : σ → σ} {next : PUnit → Action σ β}
    (h : (next ⟨⟩).Leaves (change s) holds) :
    (modify change >>= next).Leaves s holds := h

theorem lift {checked : Checked α} (h : holds s) : (liftM checked : Action σ α).Leaves s holds := by
  cases checked <;> exact h

theorem lift_bind {checked : Checked α} (h : holds s)
    (hn : ∀ a, checked = .ok a → (next a).Leaves s holds) :
    (liftM checked >>= next).Leaves s holds :=
  Ensures.lift_cases (fun _ => h) hn

theorem attempt_bind {attempt : Attempt α} (h : holds s)
    (hn : ∀ a, attempt = .ok a → (next a).Leaves s holds) :
    (liftM attempt >>= next).Leaves s holds :=
  Ensures.attempt_cases (fun _ _ => h) hn

end Leaves

def after (action : Action σ α) (s : σ) : σ :=
  match action s with
  | .ok _ t | .error _ t => t

variable {action : Action σ α} {s t : σ}

theorem Leaves.after {holds : σ → Prop} (h : action.Leaves s holds) : holds (action.after s) := by
  unfold Action.after
  cases he : action s with
  | ok a t => exact h.of_ok he
  | error stop t => exact h.of_error he

theorem after_of_ok {a : α} (h : action s = .ok a t) : action.after s = t := by
  unfold Action.after
  rw [h]

theorem after_of_error {stop : Stop} (h : action s = .error stop t) : action.after s = t := by
  unfold Action.after
  rw [h]

theorem get_run (next : σ → Action σ β) : (get >>= next) s = next s s := rfl

theorem bind_congr (next : α → Action σ β) (h : action s = action t) :
    (action >>= next) s = (action >>= next) t := by
  change EStateM.bind action next s = EStateM.bind action next t
  unfold EStateM.bind
  rw [h]

theorem bind_of_ok {a : α} (next : α → Action σ β) (h : action s = .ok a t) :
    (action >>= next) s = next a t := by
  change EStateM.bind action next s = _
  unfold EStateM.bind
  rw [h]

theorem bind_of_error {stop : Stop} (next : α → Action σ β) (h : action s = .error stop t) :
    (action >>= next) s = .error stop t := by
  change EStateM.bind action next s = _
  unfold EStateM.bind
  rw [h]

theorem map_of_ok (f : α → β) {a : α} (h : action s = .ok a t) :
    (f <$> action) s = .ok (f a) t := by
  change EStateM.map f action s = _
  unfold EStateM.map
  rw [h]

theorem discard_of_ok {a : α} (h : action s = .ok a t) : (discard action) s = .ok ⟨⟩ t :=
  map_of_ok _ h

theorem of_map_error {f : α → β} {stop : Stop}
    (h : (action >>= fun a => Pure.pure (f a)) s = .error stop t) :
    action s = .error stop t := by
  change EStateM.bind action _ s = _ at h
  unfold EStateM.bind at h
  cases ha : action s with
  | ok a mid =>
    rw [ha] at h
    cases h
  | error stop' mid =>
    rw [ha] at h
    cases h
    rfl

end Action

end StreamBuffer
