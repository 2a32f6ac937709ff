import JobControl.Proofs.Conduct

/-! # Routines that keep books

A stretch of a routine goes from one place where it waits to the next. The books of a stretch relate
the state in which it began to the one it has come to; at a place where the routine waits, and when
it is over, they have to be settled. `Routine.Follows` holds of a routine that keeps its books right
whatever the others do while it waits; `Routine.Tidy` of one that settles what it finds settled. -/

namespace JobControl

/-- What the books of a stretch have to say, `γ` being the books. -/
structure Ledger (σ γ : Type) where
  inv : σ → Prop
  /-- The books are right for a stretch that began in a state with some books, and has led to other
  books and another state. -/
  holds : σ → γ → γ → σ → Prop
  settled : γ → Prop
  /-- The books of the stretch after a wait. -/
  reopen : γ → γ
  holds_reopen : ∀ {s g}, inv s → holds s (reopen g) (reopen g) s
  settled_reopen : ∀ {g}, settled g → settled (reopen g)

namespace Ledger
variable {σ τ γ : Type}

/-- The ledger of a part of the state, for the whole. -/
def lift (L : Ledger σ γ) (P : τ → Prop) (get : τ → σ) (h : ∀ t, P t → L.inv (get t)) :
    Ledger τ γ where
  inv := P
  holds t₀ g₀ g t := P t ∧ L.holds (get t₀) g₀ g (get t)
  settled := L.settled
  reopen := L.reopen
  holds_reopen ht := ⟨ht, L.holds_reopen (h _ ht)⟩
  settled_reopen := L.settled_reopen

/-- What a step does needs no more than an entry that leaves settled books settled. -/
def Quiet (L : Ledger σ γ) (f : σ → σ) : Prop :=
  ∀ {s₀ g₀ g s}, L.settled g → L.holds s₀ g₀ g s → ∃ g', L.settled g' ∧ L.holds s₀ g₀ g' (f s)

end Ledger

namespace Routine
variable {ω σ τ γ α β : Type} {L : Ledger σ γ} {Q : α → γ → Prop} {g₀ g : γ}

/-- Beginning with the books `g`, the routine keeps its books right, and `Q` holds of what it
returns and of the books at that time. -/
def Follows (L : Ledger σ γ) (Q : α → γ → Prop) : Routine ω σ α → γ → Prop
  | done (.ok a), g => Q a g
  | done (.error _), g => L.settled g
  | step act next, g =>
    ∀ s₀ g₀ s, L.holds s₀ g₀ g s → ∃ g', L.holds s₀ g₀ g' (act s) ∧ (next s).Follows L Q g'
  | wait _ next abort, g =>
    L.settled g ∧ next.Follows L Q (L.reopen g) ∧ abort.Follows L Q (L.reopen g)

namespace Follows

theorem mono {Q' : α → γ → Prop} {r : Routine ω σ α} (h : r.Follows L Q g)
    (hQ : ∀ a g, Q a g → Q' a g) : r.Follows L Q' g := by
  induction r generalizing g with
  | done outcome =>
    cases outcome with
    | ok a => exact hQ a g h
    | error e => exact h
  | step act next ih =>
    intro s₀ g₀ s hs
    obtain ⟨g', hact, hnext⟩ := h s₀ g₀ s hs
    exact ⟨g', hact, ih s hnext⟩
  | wait wake next abort ihn iha => exact ⟨h.1, ihn h.2.1, iha h.2.2⟩

theorem bind {Q : β → γ → Prop} {r : Routine ω σ α} {k : α → Routine ω σ β}
    (h : r.Follows L (fun a g => (k a).Follows L Q g) g) : (r >>= k).Follows L Q g := by
  show (r.bind k).Follows L Q g
  induction r generalizing g with
  | done outcome => cases outcome <;> exact h
  | step act next ih =>
    intro s₀ g₀ s hs
    obtain ⟨g', hact, hnext⟩ := h s₀ g₀ s hs
    exact ⟨g', hact, ih s hnext⟩
  | wait wake next abort ihn iha => exact ⟨h.1, ihn h.2.1, iha h.2.2⟩

theorem act {f : σ → Except Failure α × σ}
    (h : ∀ s₀ g₀ s, L.holds s₀ g₀ g s → ∃ g', L.holds s₀ g₀ g' (f s).2 ∧
      (∀ a, (f s).1 = .ok a → Q a g') ∧ (∀ e, (f s).1 = .error e → L.settled g')) :
    (Routine.act f : Routine ω σ α).Follows L Q g := by
  intro s₀ g₀ s hs
  obtain ⟨g', hact, hok, herror⟩ := h s₀ g₀ s hs
  refine ⟨g', hact, ?_⟩
  show (Routine.done (f s).1).Follows L Q g'
  cases hf : (f s).1 with
  | ok a => exact hok a hf
  | error e => exact herror e hf

theorem modify {f : σ → σ} {Q : Unit → γ → Prop}
    (h : ∀ s₀ g₀ s, L.holds s₀ g₀ g s → ∃ g', L.holds s₀ g₀ g' (f s) ∧ Q () g') :
    (Routine.modify f : Routine ω σ Unit).Follows L Q g := h

theorem yielding {r : Routine ω σ α} (hg : L.settled g) (h : r.Follows L Q (L.reopen g)) :
    (Routine.yielding r).Follows L Q g := ⟨hg, h, L.settled_reopen hg⟩

theorem rescue {r : Routine ω σ α} {handler : Failure → Routine ω σ α} (h : r.Follows L Q g)
    (hh : ∀ e g, L.settled g → (handler e).Follows L Q g) : (r.rescue handler).Follows L Q g := by
  induction r generalizing g with
  | done outcome =>
    cases outcome with
    | ok a => exact h
    | error e =>
      unfold Routine.rescue
      split
      case h_2 => exact h
      case h_3 => exact hh _ _ h
      all_goals simp_all
  | step act next ih =>
    intro s₀ g₀ s hs
    obtain ⟨g', hact, hnext⟩ := h s₀ g₀ s hs
    exact ⟨g', hact, ih s hnext⟩
  | wait wake next abort ihn iha => exact ⟨h.1, ihn h.2.1, iha h.2.2⟩

theorem attempt {r : Routine ω σ α} {Q : Except Failure α → γ → Prop}
    (h : r.Follows L (fun a g => Q (.ok a) g) g) (herror : ∀ e g, L.settled g → Q (.error e) g) :
    r.attempt.Follows L Q g := by
  have hbind : (r.bind fun a => done (.ok (.ok a))).Follows L Q g := @bind _ _ _ _ _ _ g Q r _ h
  exact rescue hbind herror

end Follows

/-- The routine finds its books settled and leaves them so, and what it returns satisfies `Q`. -/
def Tidy (L : Ledger σ γ) (Q : α → Prop) (r : Routine ω σ α) : Prop :=
  ∀ ⦃g⦄, L.settled g → r.Follows L (fun a g => L.settled g ∧ Q a) g

namespace Tidy
variable {Q : α → Prop} {Q' : β → Prop}

theorem pure {a : α} (h : Q a) : Tidy L Q (Pure.pure a : Routine ω σ α) := fun _ hg => ⟨hg, h⟩

theorem fail (e : Failure) : Tidy L Q (Routine.fail e : Routine ω σ α) := fun _ hg => hg

theorem act {f : σ → Except Failure α × σ} (h : L.Quiet fun s => (f s).2) :
    Tidy L (fun _ => True) (Routine.act f : Routine ω σ α) := by
  intro g hg
  refine .act fun s₀ g₀ s hs => ?_
  obtain ⟨g', hg', hs'⟩ := h hg hs
  exact ⟨g', hs', fun _ _ => ⟨hg', trivial⟩, fun _ _ => hg'⟩

theorem modify {f : σ → σ} (h : L.Quiet f) :
    Tidy L (fun _ => True) (Routine.modify f : Routine ω σ Unit) := by
  intro g hg
  refine .modify fun s₀ g₀ s hs => ?_
  obtain ⟨g', hg', hs'⟩ := h hg hs
  exact ⟨g', hs', hg', trivial⟩

theorem update {f : σ → α × σ} (h : L.Quiet fun s => (f s).2) :
    Tidy L (fun _ => True) (Routine.update f : Routine ω σ α) := .act h

theorem await {wake : ω} : Tidy L (fun _ => True) (Routine.await wake : Routine ω σ Unit) :=
  fun _ hg => ⟨hg, ⟨L.settled_reopen hg, trivial⟩, L.settled_reopen hg⟩

theorem pass : Tidy L (fun _ => True) (Routine.pass : Routine ω σ Unit) :=
  fun _ hg => ⟨hg, ⟨L.settled_reopen hg, trivial⟩, L.settled_reopen hg, trivial⟩

theorem bind {r : Routine ω σ α} {k : α → Routine ω σ β} (hr : Tidy L Q r)
    (hk : ∀ a, Q a → Tidy L Q' (k a)) : Tidy L Q' (r >>= k) :=
  fun _ hg => .bind ((hr hg).mono fun a _ ha => hk a ha.2 ha.1)

theorem seq {r : Routine ω σ α} {k : α → Routine ω σ β} (hr : Tidy L (fun _ => True) r)
    (hk : ∀ a, Tidy L Q' (k a)) : Tidy L Q' (r >>= k) :=
  hr.bind fun a _ => hk a

theorem rescue {r : Routine ω σ α} {handler : Failure → Routine ω σ α} (hr : Tidy L Q r)
    (hh : ∀ e, Tidy L Q (handler e)) : Tidy L Q (r.rescue handler) :=
  fun _ hg => .rescue (hr hg) fun e _ hg => hh e hg

theorem ensure {r : Routine ω σ α} {cleanup : Routine ω σ Unit} (hr : Tidy L Q r)
    (hc : Tidy L (fun _ => True) cleanup) : Tidy L Q (r.ensure cleanup) := by
  intro g hg
  replace hr := hr hg
  clear hg
  induction r generalizing g with
  | done outcome =>
    refine .bind ?_
    cases outcome with
    | ok a => exact (hc hr.1).mono fun _ g' hg' => ⟨hg'.1, hr.2⟩
    | error e => exact (hc hr).mono fun _ g' hg' => hg'.1
  | step act next ih =>
    intro s₀ g₀ s hs
    obtain ⟨g', hact, hnext⟩ := hr s₀ g₀ s hs
    exact ⟨g', hact, ih s hnext⟩
  | wait wake next abort ihn iha => exact ⟨hr.1, ihn hr.2.1, iha hr.2.2⟩

/-- A routine over a part of the state, if its books say the same about the whole. -/
theorem zoom {P : τ → Prop} {part get : τ → σ} {set : σ → τ → τ} {hinv : ∀ t, P t → L.inv (part t)}
    {r : Routine ω σ α} (hP : ∀ t s, P t → P (set s t))
    (hget : ∀ {t₀ g₀ g t}, L.holds (part t₀) g₀ g (part t) → L.holds (get t₀) g₀ g (get t))
    (hset : ∀ {t₀ g₀ g t s}, L.holds (get t₀) g₀ g s → L.holds (part t₀) g₀ g (part (set s t)))
    (hr : Tidy L Q r) : Tidy (L.lift P part hinv) Q (r.zoom get set) := by
  intro g hg
  replace hr := hr hg
  clear hg
  induction r generalizing g with
  | done outcome => cases outcome <;> exact hr
  | step act next ih =>
    intro t₀ g₀ t ht
    obtain ⟨g', hact, hnext⟩ := hr (get t₀) g₀ (get t) (hget ht.2)
    exact ⟨g', ⟨hP t _ ht.1, hset hact⟩, ih _ hnext⟩
  | wait wake next abort ihn iha => exact ⟨hr.1, ihn hr.2.1, iha hr.2.2⟩

/-- A routine over a part of the state all of whose steps are quiet for the whole. -/
theorem zoom_keeps {C : Conduct τ} {get : σ → τ} {set : τ → σ → σ} {r : Routine ω τ α}
    {fresh : Bool} (hinv : ∀ s, C.inv (get s))
    (hquiet : ∀ {s₀ g₀ g s t fresh}, L.settled g → L.holds s₀ g₀ g s → C.allows fresh (get s) t →
      ∃ g', L.settled g' ∧ L.holds s₀ g₀ g' (set t s))
    (hr : r.Keeps C Q fresh) : Tidy L Q (r.zoom get set) := by
  intro g hg
  induction r generalizing fresh g with
  | done outcome =>
    cases outcome with
    | ok a => exact ⟨hg, hr a rfl⟩
    | error e => exact hg
  | step act next ih =>
    intro s₀ g₀ s hs
    obtain ⟨hact, hnext⟩ := hr (get s) (hinv s)
    obtain ⟨g', hg', hs'⟩ := hquiet hg hs hact
    exact ⟨g', hs', ih _ hnext hg'⟩
  | wait wake next abort ihn iha =>
    have hg' := L.settled_reopen hg
    exact ⟨hg, ihn hr.1 hg', iha hr.2 hg'⟩

end Tidy

/-! ## Stretches -/

/-- What is left of a routine between two stretches: it goes on, or is cancelled, with the books `g`
reopened. -/
def Waits (L : Ledger σ γ) (r : Routine ω σ α) (g : γ) : Prop :=
  r.resume.Follows L (fun _ => L.settled) (L.reopen g) ∧
    r.cancel.Follows L (fun _ => L.settled) (L.reopen g)

theorem Tidy.waits {Q : α → Prop} {r : Routine ω σ α} (h : Tidy L Q r) (hg : L.settled g) :
    (Routine.yielding r).Waits L g := by
  have hg' := L.settled_reopen hg
  exact ⟨(h hg').mono fun _ _ h => h.1, hg'⟩

/-- At the end of a stretch the books are right and settled. -/
theorem Follows.advance {r : Routine ω σ α} {s₀ s : σ} (h : r.Follows L (fun _ => L.settled) g)
    (hs : L.holds s₀ g₀ g s) :
    ∃ g', L.settled g' ∧ L.holds s₀ g₀ g' (r.advance s).2 ∧ (r.advance s).1.Waits L g' := by
  induction r generalizing g s with
  | done outcome =>
    have hg : L.settled g := by cases outcome <;> exact h
    have hg' := L.settled_reopen hg
    exact ⟨g, hg, hs, by cases outcome <;> exact ⟨hg', hg'⟩⟩
  | step act next ih =>
    obtain ⟨g', hact, hnext⟩ := h s₀ g₀ s hs
    exact ih s hnext hact
  | wait wake next abort => exact ⟨g, h.1, hs, h.2⟩

end Routine

/-- To leave the books settled, as a logic. -/
def Ledger.logic (ω : Type) {σ γ : Type} (L : Ledger σ γ) : Routine.Logic ω σ where
  holds r := Routine.Tidy L (fun _ => True) r
  given s := ∃ s₀ g₀ g, L.holds s₀ g₀ g s
  pure _ := .pure trivial
  fail := .fail
  bind := .seq
  read h g hg s₀ g₀ s hs := ⟨g, hs, h s ⟨s₀, g₀, g, hs⟩ hg⟩
  rescue := .rescue
  ensure := .ensure

end JobControl
