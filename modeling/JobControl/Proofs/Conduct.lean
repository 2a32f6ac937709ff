import JobControl.Proofs.Logic

/-! # How a routine behaves among others

A `Conduct` says what a routine may do to the shared state: its first step after a wait is a `turn`,
every other step is `quiet`. `Routine.Keeps` holds of a routine that conducts itself so in whatever
state the others leave the shared state to it, as long as they keep the invariant. -/

namespace JobControl

structure Conduct (σ : Type) where
  inv : σ → Prop
  turn : σ → σ → Prop
  quiet : σ → σ → Prop
  quiet_refl : ∀ s, quiet s s
  turn_of_quiet : ∀ {s s'}, inv s → quiet s s' → turn s s'
  turn_quiet : ∀ {s s' s''}, turn s s' → quiet s' s'' → turn s s''
  inv_turn : ∀ {s s'}, inv s → turn s s' → inv s'

namespace Conduct
variable {σ : Type} (C : Conduct σ) {s s' : σ}

theorem inv_quiet (hs : C.inv s) (h : C.quiet s s') : C.inv s' :=
  C.inv_turn hs (C.turn_of_quiet hs h)

/-- What one step may do: a turn if it is the first after a wait. -/
def allows (fresh : Bool) (s s' : σ) : Prop := if fresh then C.turn s s' else C.quiet s s'

theorem allows_of_quiet {fresh : Bool} (hs : C.inv s) (h : C.quiet s s') : C.allows fresh s s' := by
  unfold allows
  split
  · exact C.turn_of_quiet hs h
  · exact h

end Conduct

namespace Routine
variable {ω σ τ α β : Type} {C : Conduct σ} {Q : α → Prop} {Q' : β → Prop} {fresh : Bool}

/-- Every step of the routine is allowed, and what it returns satisfies `Q`. -/
def Keeps (C : Conduct σ) (Q : α → Prop) : Routine ω σ α → Bool → Prop
  | done outcome, _ => ∀ a, outcome = .ok a → Q a
  | step act next, fresh =>
    ∀ s, C.inv s → C.allows fresh s (act s) ∧ (next s).Keeps C Q false
  | wait _ next abort, _ => next.Keeps C Q true ∧ abort.Keeps C Q true

namespace Keeps

theorem fresh_of_not {r : Routine ω σ α} (h : r.Keeps C Q false) : r.Keeps C Q fresh := by
  cases r with
  | done outcome => exact h
  | step act next => exact fun s hs => ⟨C.allows_of_quiet hs (h s hs).1, (h s hs).2⟩
  | wait wake next abort => exact h

theorem pure {a : α} (h : Q a) : (Pure.pure a : Routine ω σ α).Keeps C Q fresh := by
  rintro b ⟨⟩
  exact h

theorem fail (e : Failure) : (Routine.fail e : Routine ω σ α).Keeps C Q fresh := nofun

theorem act {f : σ → Except Failure α × σ} (h : ∀ s, C.inv s → C.allows fresh s (f s).2)
    (hQ : ∀ s, C.inv s → ∀ a, (f s).1 = .ok a → Q a) :
    (Routine.act f : Routine ω σ α).Keeps C Q fresh :=
  fun s hs => ⟨h s hs, hQ s hs⟩

theorem modify {f : σ → σ} {Q : Unit → Prop} (h : ∀ s, C.inv s → C.allows fresh s (f s))
    (hQ : Q ()) : (Routine.modify f : Routine ω σ Unit).Keeps C Q fresh :=
  fun s hs => ⟨h s hs, fun _ _ => hQ⟩

theorem update {f : σ → α × σ} (h : ∀ s, C.inv s → C.allows fresh s (f s).2)
    (hQ : ∀ s, C.inv s → Q (f s).1) : (Routine.update f : Routine ω σ α).Keeps C Q fresh := by
  intro s hs
  refine ⟨h s hs, ?_⟩
  rintro a ⟨⟩
  exact hQ s hs

theorem yielding {r : Routine ω σ α} (h : r.Keeps C Q true) :
    (Routine.yielding r).Keeps C Q fresh := ⟨h, fail _⟩

theorem bind {r : Routine ω σ α} {k : α → Routine ω σ β} (hr : r.Keeps C Q fresh)
    (hk : ∀ a, Q a → (k a).Keeps C Q' false) : (r >>= k).Keeps C Q' fresh := by
  show (r.bind k).Keeps C Q' fresh
  induction r generalizing fresh with
  | done outcome =>
    cases outcome with
    | ok a => exact (hk a (hr a rfl)).fresh_of_not
    | error e => exact fail e
  | step act next ih => exact fun s hs => ⟨(hr s hs).1, ih s (hr s hs).2⟩
  | wait wake next abort ihn iha => exact ⟨ihn hr.1, iha hr.2⟩

theorem seq {r : Routine ω σ α} {k : α → Routine ω σ β} (hr : r.Keeps C (fun _ => True) fresh)
    (hk : ∀ a, (k a).Keeps C Q' false) : (r >>= k).Keeps C Q' fresh :=
  hr.bind fun a _ => hk a

theorem map {r : Routine ω σ α} {f : α → β} (hr : r.Keeps C Q fresh) (hf : ∀ a, Q a → Q' (f a)) :
    (f <$> r).Keeps C Q' fresh :=
  hr.bind fun a ha => pure (hf a ha)

theorem rescue {r : Routine ω σ α} {handler : Failure → Routine ω σ α} (hr : r.Keeps C Q fresh)
    (hh : ∀ e, (handler e).Keeps C Q false) : (r.rescue handler).Keeps C Q fresh := by
  induction r generalizing fresh with
  | done outcome =>
    cases outcome with
    | ok a => exact hr
    | error e =>
      unfold Routine.rescue
      split
      case h_2 => exact fail _
      case h_3 => exact (hh _).fresh_of_not
      all_goals simp_all
  | step act next ih => exact fun s hs => ⟨(hr s hs).1, ih s (hr s hs).2⟩
  | wait wake next abort ihn iha => exact ⟨ihn hr.1, iha hr.2⟩

theorem attempt {r : Routine ω σ α} (hr : r.Keeps C Q fresh) :
    r.attempt.Keeps C (fun outcome => ∀ a, outcome = .ok a → Q a) fresh := by
  refine rescue (bind hr fun a ha => ?_) fun e => pure nofun
  refine pure ?_
  rintro b ⟨⟩
  exact ha

theorem ensure {r : Routine ω σ α} {cleanup : Routine ω σ Unit} (hr : r.Keeps C Q fresh)
    (hc : cleanup.Keeps C (fun _ => True) false) : (r.ensure cleanup).Keeps C Q fresh := by
  induction r generalizing fresh with
  | done outcome => exact bind hc.fresh_of_not fun _ _ => hr
  | step act next ih => exact fun s hs => ⟨(hr s hs).1, ih s (hr s hs).2⟩
  | wait wake next abort ihn iha => exact ⟨ihn hr.1, iha hr.2⟩

/-- A routine over a part of the state, if what it does to the part is allowed as done to the
whole. -/
theorem zoom {D : Conduct τ} {get : τ → σ} {set : σ → τ → τ} {r : Routine ω σ α}
    (hinv : ∀ t, D.inv t → C.inv (get t))
    (hallows : ∀ t s' fresh, D.inv t → C.allows fresh (get t) s' → D.allows fresh t (set s' t))
    (hr : r.Keeps C Q fresh) : (r.zoom get set).Keeps D Q fresh := by
  induction r generalizing fresh with
  | done outcome => exact hr
  | step act next ih =>
    intro t ht
    obtain ⟨hact, hnext⟩ := hr (get t) (hinv t ht)
    exact ⟨hallows t _ fresh ht hact, ih _ hnext⟩
  | wait wake next abort ihn iha => exact ⟨ihn hr.1, iha hr.2⟩

/-! ## One stretch, from wait to wait -/

theorem resume {r : Routine ω σ α} (h : r.Keeps C Q false) : r.resume.Keeps C Q true := by
  cases r with
  | done outcome => exact h
  | step act next => exact h.fresh_of_not
  | wait wake next abort => exact h.1

theorem cancel {r : Routine ω σ α} (h : r.Keeps C Q false) : r.cancel.Keeps C Q true := by
  cases r with
  | done outcome => exact h
  | step act next => exact h.fresh_of_not
  | wait wake next abort => exact h.2

theorem advance_quiet {r : Routine ω σ α} {s₀ s : σ} (h : r.Keeps C Q false) (hs : C.inv s)
    (hturn : C.turn s₀ s) :
    C.turn s₀ (r.advance s).2 ∧ (r.advance s).1.Keeps C Q false := by
  induction r generalizing s with
  | done outcome => exact ⟨hturn, h⟩
  | step act next ih =>
    obtain ⟨hact, hnext⟩ := h s hs
    exact ih s hnext (C.inv_quiet hs hact) (C.turn_quiet hturn hact)
  | wait wake next abort => exact ⟨hturn, h⟩

/-- A whole stretch is one turn, and the rest of the routine keeps the conduct. -/
theorem advance {r : Routine ω σ α} {s : σ} (h : r.Keeps C Q true) (hs : C.inv s) :
    C.turn s (r.advance s).2 ∧ (r.advance s).1.Keeps C Q false := by
  have hrefl : C.turn s s := C.turn_of_quiet hs (C.quiet_refl s)
  cases r with
  | done outcome => exact ⟨hrefl, h⟩
  | step act next =>
    obtain ⟨hact, hnext⟩ := h s hs
    exact hnext.advance_quiet (C.inv_turn hs hact) hact
  | wait wake next abort => exact ⟨hrefl, h⟩

/-- What quiet steps keep is kept from the start of a quiet stretch to its end. -/
theorem advance_rel {R : σ → σ → Prop} (hrefl : ∀ s, R s s)
    (hquiet : ∀ {s s' s''}, C.quiet s s' → R s' s'' → R s s'') {r : Routine ω σ α} {s : σ}
    (h : r.Keeps C Q false) (hs : C.inv s) : R s (r.advance s).2 := by
  induction r generalizing s with
  | done outcome => exact hrefl s
  | step act next ih =>
    obtain ⟨hact, hnext⟩ := h s hs
    exact hquiet hact (ih s hnext (C.inv_quiet hs hact))
  | wait wake next abort => exact hrefl s

/-- What every allowed step keeps is kept by a run. -/
theorem run {R : σ → σ → Prop} (hrefl : ∀ s, R s s)
    (hstep : ∀ {fresh s s' s''}, C.allows fresh s s' → R s' s'' → R s s'')
    {r : Routine ω σ α} {s : σ} (h : r.Keeps C Q fresh) (hs : C.inv s) : R s (r.run s).2 := by
  induction r generalizing fresh s with
  | done outcome => exact hrefl s
  | step act next ih =>
    obtain ⟨hact, hnext⟩ := h s hs
    have hinv : C.inv (act s) := by
      cases fresh
      · exact C.inv_quiet hs hact
      · exact C.inv_turn hs hact
    exact hstep hact (ih s hnext hinv)
  | wait wake next abort ih _ => exact ih h.1 hs

end Keeps

/-! ## Stretches, construct by construct -/

theorem advance_bind (r : Routine ω σ α) (k : α → Routine ω σ β) (s : σ) :
    (r >>= k).advance s =
      match r.advance s with
      | (done (.ok a), s') => (k a).advance s'
      | (done (.error e), s') => (done (.error e), s')
      | (r', s') => (r' >>= k, s') := by
  show (r.bind k).advance s = _
  induction r generalizing s with
  | done outcome => cases outcome <;> rfl
  | step act next ih => exact ih s (act s)
  | wait wake next abort => rfl

theorem advance_zoom (get : τ → σ) (set : σ → τ → τ) (get_set : ∀ s t, get (set s t) = s)
    (set_set : ∀ s s' t, set s (set s' t) = set s t) (set_get : ∀ t, set (get t) t = t)
    (r : Routine ω σ α) (t : τ) :
    (r.zoom get set).advance t =
      (((r.advance (get t)).1).zoom get set, set (r.advance (get t)).2 t) := by
  induction r generalizing t with
  | done outcome => simp [zoom, advance, set_get]
  | step act next ih => simp only [zoom, advance]; rw [ih]; simp [get_set, set_set]
  | wait wake next abort => simp [zoom, advance, set_get]

/-- The rest of a routine after a stretch either is over or waits. -/
theorem advance_rests (r : Routine ω σ α) (s : σ) :
    (∃ outcome, (r.advance s).1 = done outcome) ∨
      ∃ wake next abort, (r.advance s).1 = wait wake next abort := by
  induction r generalizing s with
  | done outcome => exact .inl ⟨outcome, rfl⟩
  | step act next ih => exact ih s (act s)
  | wait wake next abort => exact .inr ⟨wake, next, abort, rfl⟩

end Routine

/-- To keep a conduct, once a step was taken. -/
def Conduct.logic (ω : Type) {σ : Type} (C : Conduct σ) : Routine.Logic ω σ where
  holds r := r.Keeps C (fun _ => True) false
  given := C.inv
  pure _ := .pure trivial
  fail := .fail
  bind := .seq
  read h s hs := ⟨C.allows_of_quiet hs (C.quiet_refl s), h s hs⟩
  rescue := .rescue
  ensure := .ensure

end JobControl
