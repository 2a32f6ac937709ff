import JobControl.Proofs.Conduct

/-! # What a routine may rely on while it waits

A conduct says what a routine may do to the shared state. A `Pact` says in addition what it may wait
for, and what of the state it may rely on meanwhile, so that what it has seen before it waits may
count after it. `Routine.Honours` holds of a routine in view of a state, `Routine.Fulfils` of one
that may begin in any. -/

namespace JobControl

structure Pact (ω ν σ : Type) extends Conduct σ where
  /-- What a routine remembers of the state. -/
  view : σ → ν
  waits : Option ω → Prop
  /-- How others may change the view of a routine that waits. -/
  rely : Option ω → ν → ν → Prop
  rely_refl : ∀ wake v, rely wake v v
  rely_trans : ∀ {wake v v' v''}, rely wake v v' → rely wake v' v'' → rely wake v v''

namespace Routine
variable {ω ν σ τ α β : Type} {P : Pact ω ν σ} {fresh : Bool} {v v' : ν} {s s' : σ}

/-- Every step of the routine is allowed, as long as the others let it see what it relies on. -/
def Honours (P : Pact ω ν σ) : Routine ω σ α → Bool → ν → Prop
  | done _, _, _ => True
  | step act next, fresh, v => ∀ s, P.inv s → P.view s = v →
      P.allows fresh s (act s) ∧ (next s).Honours P false (P.view (act s))
  | wait wake next abort, _, v => P.waits wake ∧
      ∀ v', P.rely wake v v' → next.Honours P true v' ∧ abort.Honours P true v'

/-- The routine honours the pact wherever it begins. -/
def Fulfils (P : Pact ω ν σ) (r : Routine ω σ α) : Prop := ∀ v, r.Honours P false v

namespace Honours

theorem fresh_of_not {r : Routine ω σ α} (h : r.Honours P false v) : r.Honours P fresh v := by
  cases r with
  | done outcome => trivial
  | step act next =>
    intro s hs hv
    obtain ⟨hquiet, hnext⟩ := h s hs hv
    exact ⟨P.allows_of_quiet hs hquiet, hnext⟩
  | wait wake next abort => exact h

theorem bind {r : Routine ω σ α} {k : α → Routine ω σ β} (h : r.Honours P fresh v)
    (hk : ∀ a, (k a).Fulfils P) : (r >>= k).Honours P fresh v := by
  show (r.bind k).Honours P fresh v
  induction r generalizing fresh v with
  | done outcome =>
    cases outcome with
    | ok a => exact (hk a v).fresh_of_not
    | error e => trivial
  | step act next ih => exact fun s hs hv => ⟨(h s hs hv).1, ih s (h s hs hv).2⟩
  | wait wake next abort ihn iha =>
    exact ⟨h.1, fun v' hv => ⟨ihn (h.2 v' hv).1, iha (h.2 v' hv).2⟩⟩

theorem rescue {r : Routine ω σ α} {handler : Failure → Routine ω σ α} (h : r.Honours P fresh v)
    (hh : ∀ e, (handler e).Fulfils P) : (r.rescue handler).Honours P fresh v := by
  induction r generalizing fresh v with
  | done outcome =>
    cases outcome with
    | ok a => trivial
    | error e =>
      cases e with
      | cancelled => trivial
      | _ => exact (hh _ v).fresh_of_not
  | step act next ih => exact fun s hs hv => ⟨(h s hs hv).1, ih s (h s hs hv).2⟩
  | wait wake next abort ihn iha =>
    exact ⟨h.1, fun v' hv => ⟨ihn (h.2 v' hv).1, iha (h.2 v' hv).2⟩⟩

theorem attempt {r : Routine ω σ α} (h : r.Honours P fresh v) : r.attempt.Honours P fresh v :=
  rescue (bind h fun _ _ => trivial) fun _ _ => trivial

theorem ensure {r : Routine ω σ α} {cleanup : Routine ω σ Unit} (h : r.Honours P fresh v)
    (hc : cleanup.Fulfils P) : (r.ensure cleanup).Honours P fresh v := by
  induction r generalizing fresh v with
  | done outcome => exact bind (hc v).fresh_of_not fun _ _ => trivial
  | step act next ih => exact fun s hs hv => ⟨(h s hs hv).1, ih s (h s hs hv).2⟩
  | wait wake next abort ihn iha =>
    exact ⟨h.1, fun v' hv => ⟨ihn (h.2 v' hv).1, iha (h.2 v' hv).2⟩⟩

/-- A routine over a part of the state. What is seen of the whole decides what is seen of the
part. -/
theorem zoom {ν' : Type} {D : Pact ω ν' τ} {get : τ → σ} {set : σ → τ → τ} {f : ν' → ν}
    {r : Routine ω σ α} (hinv : ∀ t, D.inv t → P.inv (get t))
    (hallows : ∀ t s fresh, D.inv t → P.allows fresh (get t) s → D.allows fresh t (set s t))
    (hget : ∀ t, f (D.view t) = P.view (get t)) (hset : ∀ t s, f (D.view (set s t)) = P.view s)
    (hwaits : ∀ wake, P.waits wake → D.waits wake)
    (hrely : ∀ wake v v', D.rely wake v v' → P.rely wake (f v) (f v')) {v : ν'}
    (h : r.Honours P fresh (f v)) : (r.zoom get set).Honours D fresh v := by
  induction r generalizing fresh v with
  | done outcome => trivial
  | step act next ih =>
    intro t ht hv
    obtain ⟨hact, hnext⟩ := h (get t) (hinv t ht) ((hget t).symm.trans (congrArg f hv))
    refine ⟨hallows t _ fresh ht hact, ih (get t) ?_⟩
    rw [hset]
    exact hnext
  | wait wake next abort ihn iha =>
    refine ⟨hwaits wake h.1, fun v' hv => ?_⟩
    obtain ⟨hnext, habort⟩ := h.2 (f v') (hrely wake v v' hv)
    exact ⟨ihn hnext, iha habort⟩

/-! ## One stretch, from wait to wait -/

/-- What the others do while the routine waits, as far as it relies on it. -/
theorem of_rely {wake : Option ω} {next abort : Routine ω σ α}
    (h : (wait wake next abort).Honours P fresh v) (hrely : P.rely wake v v') :
    (wait wake next abort).Honours P fresh v' :=
  ⟨h.1, fun v'' hv => h.2 v'' (P.rely_trans hrely hv)⟩

theorem resume {r : Routine ω σ α} (h : r.Honours P false v) : r.resume.Honours P true v := by
  cases r with
  | done outcome => trivial
  | step act next => exact h.fresh_of_not
  | wait wake next abort => exact (h.2 v (P.rely_refl wake v)).1

theorem cancel {r : Routine ω σ α} (h : r.Honours P false v) : r.cancel.Honours P true v := by
  cases r with
  | done outcome => trivial
  | step act next => exact h.fresh_of_not
  | wait wake next abort => exact (h.2 v (P.rely_refl wake v)).2

theorem advance_quiet {r : Routine ω σ α} {s₀ : σ} (h : r.Honours P false (P.view s))
    (hs : P.inv s) (hturn : P.turn s₀ s) :
    P.turn s₀ (r.advance s).2 ∧ (r.advance s).1.Honours P false (P.view (r.advance s).2) := by
  induction r generalizing s with
  | done outcome => exact ⟨hturn, trivial⟩
  | step act next ih =>
    obtain ⟨hact, hnext⟩ := h s hs rfl
    exact ih s hnext (P.inv_quiet hs hact) (P.turn_quiet hturn hact)
  | wait wake next abort => exact ⟨hturn, h⟩

/-- A whole stretch is one turn, and the rest of the routine honours the pact. -/
theorem advance {r : Routine ω σ α} (h : r.Honours P true (P.view s)) (hs : P.inv s) :
    P.turn s (r.advance s).2 ∧ (r.advance s).1.Honours P false (P.view (r.advance s).2) := by
  have hrefl : P.turn s s := P.turn_of_quiet hs (P.quiet_refl s)
  cases r with
  | done outcome => exact ⟨hrefl, trivial⟩
  | step act next =>
    obtain ⟨hact, hnext⟩ := h s hs rfl
    have hact : P.turn s (act s) := hact
    exact hnext.advance_quiet (P.inv_turn hs hact) hact
  | wait wake next abort => exact ⟨hrefl, h⟩

end Honours

/-! ## Construct by construct -/

namespace Fulfils

theorem pure (a : α) : (Pure.pure a : Routine ω σ α).Fulfils P := fun _ => trivial

theorem fail (e : Failure) : (Routine.fail e : Routine ω σ α).Fulfils P := fun _ => trivial

theorem act {f : σ → Except Failure α × σ} (h : ∀ s, P.inv s → P.quiet s (f s).2) :
    (Routine.act f : Routine ω σ α).Fulfils P := fun _ s hs _ => ⟨h s hs, trivial⟩

theorem modify {f : σ → σ} (h : ∀ s, P.inv s → P.quiet s (f s)) :
    (Routine.modify f : Routine ω σ Unit).Fulfils P := fun _ s hs _ => ⟨h s hs, trivial⟩

theorem update {f : σ → α × σ} (h : ∀ s, P.inv s → P.quiet s (f s).2) :
    (Routine.update f : Routine ω σ α).Fulfils P := fun _ s hs _ => ⟨h s hs, trivial⟩

theorem yielding {r : Routine ω σ α} (hwaits : P.waits none) (h : ∀ v, r.Honours P true v) :
    (Routine.yielding r).Fulfils P := fun _ => ⟨hwaits, fun v' _ => ⟨h v', trivial⟩⟩

theorem await {wake : ω} (hwaits : P.waits (some wake)) :
    (Routine.await wake : Routine ω σ Unit).Fulfils P :=
  fun _ => ⟨hwaits, fun _ _ => ⟨trivial, trivial⟩⟩

theorem pass (hwaits : P.waits none) : (Routine.pass : Routine ω σ Unit).Fulfils P :=
  fun _ => ⟨hwaits, fun _ _ => ⟨trivial, trivial⟩⟩

theorem bind {r : Routine ω σ α} {k : α → Routine ω σ β} (hr : r.Fulfils P)
    (hk : ∀ a, (k a).Fulfils P) : (r >>= k).Fulfils P := fun v => (hr v).bind hk

/-- What follows upon a reading knows the state that was read. -/
theorem bind_read {f : σ → α} {k : α → Routine ω σ β} (hk : ∀ s, P.inv s → (k (f s)).Fulfils P) :
    (Routine.read f >>= k).Fulfils P := fun _ s hs _ => ⟨P.quiet_refl s, hk s hs _⟩

theorem rescue {r : Routine ω σ α} {handler : Failure → Routine ω σ α} (hr : r.Fulfils P)
    (hh : ∀ e, (handler e).Fulfils P) : (r.rescue handler).Fulfils P :=
  fun v => (hr v).rescue hh

theorem ensure {r : Routine ω σ α} {cleanup : Routine ω σ Unit} (hr : r.Fulfils P)
    (hc : cleanup.Fulfils P) : (r.ensure cleanup).Fulfils P := fun v => (hr v).ensure hc

end Fulfils
end Routine

/-- To fulfil a pact, as a logic. -/
def Pact.logic {ω ν σ : Type} (P : Pact ω ν σ) : Routine.Logic ω σ where
  holds r := r.Fulfils P
  given := P.inv
  pure := .pure
  fail := .fail
  bind := .bind
  read := .bind_read
  rescue := .rescue
  ensure := .ensure

end JobControl
