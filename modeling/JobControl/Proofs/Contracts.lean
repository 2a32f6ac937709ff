import JobControl.Proofs.Conduct

/-! # What a routine attains

A `Tracking` keeps an account of the part of the shared state that a routine is about. While the
routine waits, the others may do anything that leaves its account true. `Routine.Attains` holds of
a routine that nevertheless comes to its end after a bounded number of waits, and says what the
outcome and the account are then. -/

namespace JobControl

/-- How a routine keeps track of the state, `γ` being its accounts. -/
structure Tracking (ω σ γ : Type) where
  /-- The account is true of the state. -/
  shows : γ → σ → Prop
  /-- What the routine relies on in every state in which it takes a step. -/
  fair : σ → Prop
  /-- What the routine may wait for. -/
  patient : ω → Prop

namespace Routine
variable {ω σ τ γ δ α β : Type} {T : Tracking ω σ γ} {g : γ} {n m : Nat}

/-- From a state with the account `g` the routine, if it is not cancelled, comes to its end after at
most `n` waits, and `Q` holds of its outcome and of the account at that time. -/
def Attains (T : Tracking ω σ γ) (Q : Except Failure α → γ → Prop) :
    Routine ω σ α → γ → Nat → Prop
  | done outcome, g, _ => Q outcome g
  | step act next, g, n =>
    ∀ s, T.shows g s → T.fair s → ∃ g', T.shows g' (act s) ∧ (next s).Attains T Q g' n
  | wait wake next _, g, n =>
    (∀ w, wake = some w → T.patient w) ∧ ∃ m < n, next.Attains T Q g m

/-- The outcome is a result. -/
def Returning (Q : α → γ → Prop) (outcome : Except Failure α) (g : γ) : Prop :=
  ∃ a, outcome = .ok a ∧ Q a g

/-- The outcome is a result, and the account has become `u`. -/
def Leaving (u : γ) : Except Failure α → γ → Prop := Returning fun _ g => g = u

namespace Attains
variable {Q Q' : Except Failure α → γ → Prop}

theorem mono {r : Routine ω σ α} (h : r.Attains T Q g n) (hn : n ≤ m)
    (hQ : ∀ outcome g, Q outcome g → Q' outcome g) : r.Attains T Q' g m := by
  induction r generalizing g n m with
  | done outcome => exact hQ outcome g h
  | step act next ih =>
    intro s hs hfair
    obtain ⟨g', hact, hnext⟩ := h s hs hfair
    exact ⟨g', hact, ih s hnext hn⟩
  | wait wake next abort ih _ =>
    obtain ⟨hwake, k, hk, hnext⟩ := h
    exact ⟨hwake, k, Nat.lt_of_lt_of_le hk hn, ih hnext (Nat.le_refl k)⟩

theorem le {r : Routine ω σ α} (h : r.Attains T Q g n) (hn : n ≤ m) : r.Attains T Q g m :=
  h.mono hn fun _ _ => id

theorem read {f : σ → α} (h : ∀ s, T.shows g s → T.fair s → Q (.ok (f s)) g) :
    (Routine.read f : Routine ω σ α).Attains T Q g n :=
  fun s hs hfair => ⟨g, hs, h s hs hfair⟩

theorem act {f : σ → Except Failure α × σ}
    (h : ∀ s, T.shows g s → T.fair s → ∃ g', T.shows g' (f s).2 ∧ Q (f s).1 g') :
    (Routine.act f : Routine ω σ α).Attains T Q g n := h

theorem modify {f : σ → σ} {Q : Except Failure Unit → γ → Prop}
    (h : ∀ s, T.shows g s → T.fair s → ∃ g', T.shows g' (f s) ∧ Q (.ok ()) g') :
    (Routine.modify f : Routine ω σ Unit).Attains T Q g n := h

theorem yielding {r : Routine ω σ α} (h : r.Attains T Q g n) :
    (Routine.yielding r).Attains T Q g (n + 1) :=
  ⟨nofun, n, Nat.lt_succ_self n, h⟩

theorem await {wake : ω} (hwake : T.patient wake) {Q : Except Failure Unit → γ → Prop}
    (h : Q (.ok ()) g) : (Routine.await wake : Routine ω σ Unit).Attains T Q g 1 := by
  refine ⟨fun w hw => ?_, 0, Nat.zero_lt_one, h⟩
  obtain rfl := Option.some.inj hw
  exact hwake

theorem pass {Q : Except Failure Unit → γ → Prop} (h : Q (.ok ()) g) :
    (Routine.pass : Routine ω σ Unit).Attains T Q g 1 :=
  ⟨nofun, 0, Nat.zero_lt_one, h⟩

theorem bind {P : α → γ → Prop} {Q : Except Failure β → γ → Prop} {r : Routine ω σ α}
    {k : α → Routine ω σ β} (h : r.Attains T (Returning P) g n)
    (hk : ∀ a g', P a g' → (k a).Attains T Q g' m) : (r >>= k).Attains T Q g (n + m) := by
  show (r.bind k).Attains T Q g (n + m)
  induction r generalizing g n with
  | done outcome =>
    obtain ⟨a, rfl, ha⟩ := h
    exact (hk a g ha).le (Nat.le_add_left m n)
  | step act next ih =>
    intro s hs hfair
    obtain ⟨g', hact, hnext⟩ := h s hs hfair
    exact ⟨g', hact, ih s hnext⟩
  | wait wake next abort ih _ =>
    obtain ⟨hwake, k, hk, hnext⟩ := h
    exact ⟨hwake, k + m, Nat.add_lt_add_right hk m, ih hnext⟩

theorem seq {Q : Except Failure β → γ → Prop} {r : Routine ω σ α} {k : α → Routine ω σ β} {u : γ}
    (h : r.Attains T (Leaving u) g n) (hk : ∀ a, (k a).Attains T Q u m) :
    (r >>= k).Attains T Q g (n + m) := by
  refine bind h fun a g' hg => ?_
  obtain rfl := hg
  exact hk a

theorem map {P : α → γ → Prop} {Q : β → γ → Prop} {f : α → β} {r : Routine ω σ α}
    (h : r.Attains T (Returning P) g n) (hf : ∀ a g', P a g' → Q (f a) g') :
    (f <$> r).Attains T (Returning Q) g n := by
  have hbind : (r >>= fun a => Pure.pure (f a)).Attains T (Returning Q) g (n + 0) :=
    bind h fun a g' ha => ⟨f a, rfl, hf a g' ha⟩
  exact hbind

/-- A failure becomes a result; a cancellation would not. -/
theorem attempt {r : Routine ω σ α} (h : r.Attains T Q g n)
    (hcancelled : ∀ g', ¬Q (.error .cancelled) g') :
    r.attempt.Attains T (Returning Q) g n := by
  unfold Routine.attempt
  induction r generalizing g n with
  | done outcome =>
    cases outcome with
    | ok a => exact ⟨.ok a, rfl, h⟩
    | error e =>
      cases e
      case cancelled => exact absurd h (hcancelled g)
      all_goals exact ⟨.error _, rfl, h⟩
  | step act next ih =>
    intro s hs hfair
    obtain ⟨g', hact, hnext⟩ := h s hs hfair
    exact ⟨g', hact, ih s hnext⟩
  | wait wake next abort ih _ =>
    obtain ⟨hwake, k, hk, hnext⟩ := h
    exact ⟨hwake, k, hk, ih hnext⟩

theorem ensure {r : Routine ω σ α} {cleanup : Routine ω σ Unit} (h : r.Attains T Q g n)
    (hc : ∀ outcome g', Q outcome g' →
      cleanup.Attains T (Returning fun _ g'' => Q' outcome g'') g' m) :
    (r.ensure cleanup).Attains T Q' g (n + m) := by
  induction r generalizing g n with
  | done outcome =>
    have hcleanup : (cleanup >>= fun _ => done outcome).Attains T Q' g (m + n) :=
      (hc outcome g h).bind fun _ _ hQ => hQ
    rwa [Nat.add_comm] at hcleanup
  | step act next ih =>
    intro s hs hfair
    obtain ⟨g', hact, hnext⟩ := h s hs hfair
    exact ⟨g', hact, ih s hnext⟩
  | wait wake next abort ih _ =>
    obtain ⟨hwake, k, hk, hnext⟩ := h
    exact ⟨hwake, k + m, Nat.add_lt_add_right hk m, ih hnext⟩

/-- A routine over a part of the state, if what it does to the part shows in the account of the
whole. -/
theorem zoom {U : Tracking ω τ δ} {get : τ → σ} {set : σ → τ → τ} {f : γ → δ}
    {Q : Except Failure α → δ → Prop} {r : Routine ω σ α}
    (hget : ∀ g t, U.shows (f g) t → T.shows g (get t)) (hfair : ∀ t, U.fair t → T.fair (get t))
    (hset : ∀ g g' t s', U.shows (f g) t → T.shows g' s' → U.shows (f g') (set s' t))
    (hpatient : ∀ w, T.patient w → U.patient w)
    (h : r.Attains T (fun outcome g => Q outcome (f g)) g n) :
    (r.zoom get set).Attains U Q (f g) n := by
  induction r generalizing g n with
  | done outcome => exact h
  | step act next ih =>
    intro t ht hft
    obtain ⟨g', hact, hnext⟩ := h (get t) (hget g t ht) (hfair t hft)
    exact ⟨f g', hset g g' t _ ht hact, ih _ hnext⟩
  | wait wake next abort ih _ =>
    obtain ⟨hwake, k, hk, hnext⟩ := h
    exact ⟨fun w hw => hpatient w (hwake w hw), k, hk, ih hnext⟩

/-! ## One stretch, from wait to wait -/

variable {C : Conduct σ} {P : α → Prop} {r : Routine ω σ α} {s s₀ : σ}

theorem advance_quiet (hkeeps : r.Keeps C P false) (hs : C.inv s) (hturn : C.turn s₀ s)
    (hfair : ∀ s', C.turn s₀ s' → C.turn s' (r.advance s).2 → T.fair s')
    (h : r.Attains T Q g n) (hg : T.shows g s) :
    ∃ g', T.shows g' (r.advance s).2 ∧ (r.advance s).1.Attains T Q g' n := by
  induction r generalizing s g with
  | done outcome => exact ⟨g, hg, h⟩
  | step act next ih =>
    have hrest : C.turn s ((step act next).advance s).2 :=
      (hkeeps.advance_quiet hs (C.turn_of_quiet hs (C.quiet_refl s))).1
    obtain ⟨hact, hnext⟩ := hkeeps s hs
    obtain ⟨g', hg', hattains⟩ := h s hg (hfair s hturn hrest)
    exact ih s hnext (C.inv_quiet hs hact) (C.turn_quiet hturn hact) hfair hattains hg'
  | wait wake next abort => exact ⟨g, hg, h⟩

/-- If all states of a stretch were fair, the account is true after it, and the rest of the routine
attains what was to be attained. -/
theorem advance (hkeeps : r.Keeps C P true) (hs : C.inv s)
    (hfair : ∀ s', C.turn s s' → C.turn s' (r.advance s).2 → T.fair s')
    (h : r.Attains T Q g n) (hg : T.shows g s) :
    ∃ g', T.shows g' (r.advance s).2 ∧ (r.advance s).1.Attains T Q g' n := by
  cases r with
  | done outcome => exact ⟨g, hg, h⟩
  | step act next =>
    have hrefl : C.turn s s := C.turn_of_quiet hs (C.quiet_refl s)
    have hrest := (hkeeps.advance hs).1
    obtain ⟨hact, hnext⟩ := hkeeps s hs
    have hact : C.turn s (act s) := hact
    have hinv : C.inv (act s) := C.inv_turn hs hact
    obtain ⟨g', hg', hattains⟩ := h s hg (hfair s hrefl hrest)
    exact advance_quiet (r := next s) (s := act s) hnext hinv hact hfair hattains hg'
  | wait wake next abort => exact ⟨g, hg, h⟩

end Attains
end Routine
end JobControl
