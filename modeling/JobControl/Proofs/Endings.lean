import JobControl.Proofs.Operations

/-! # What has ended when a routine returns

A routine `Stalls` while something lasts if it cannot return before that is over: it may wait, go on
or fail, but if each of its steps leaves a state in which it still lasts, it never gets to a result.
So a kill that returns has ended its job, and a pass that returns has ended all that it was to
kill. -/

namespace JobControl
open Routine (Keeps)

namespace Routine
variable {ω σ τ α β : Type} {P : σ → Prop}

/-- If `P` holds before and after each of its steps, the routine returns nothing. -/
def Stalls (P : σ → Prop) : Routine ω σ α → Prop
  | done outcome => ∀ a, outcome ≠ .ok a
  | step act next => ∀ s, P s → P (act s) → (next s).Stalls P
  | wait _ next abort => next.Stalls P ∧ abort.Stalls P

namespace Stalls

theorem fail (e : Failure) : (Routine.fail e : Routine ω σ α).Stalls P := nofun

theorem yielding {r : Routine ω σ α} (h : r.Stalls P) : (Routine.yielding r).Stalls P := ⟨h, fail _⟩

theorem first {r : Routine ω σ α} {k : α → Routine ω σ β} (h : r.Stalls P) :
    (r >>= k).Stalls P := by
  show (r.bind k).Stalls P
  induction r with
  | done outcome =>
    cases outcome with
    | ok a => exact absurd rfl (h a)
    | error e => exact fail e
  | step act next ih => exact fun s hs hact => ih s (h s hs hact)
  | wait wake next abort ihn iha => exact ⟨ihn h.1, iha h.2⟩

theorem second {r : Routine ω σ α} {k : α → Routine ω σ β} (h : ∀ a, (k a).Stalls P) :
    (r >>= k).Stalls P := by
  show (r.bind k).Stalls P
  induction r with
  | done outcome =>
    cases outcome with
    | ok a => exact h a
    | error e => exact fail e
  | step act next ih => exact fun s _ _ => ih s
  | wait wake next abort ihn iha => exact ⟨ihn, iha⟩

theorem zoom {D : τ → Prop} {get : τ → σ} {set : σ → τ → τ} {r : Routine ω σ α}
    (hget : ∀ t, D t → P (get t)) (hset : ∀ s t, D (set s t) → P s) (h : r.Stalls P) :
    (r.zoom get set).Stalls D := by
  induction r with
  | done outcome => exact h
  | step act next ih => exact fun t ht hact => ih (get t) (h (get t) (hget t ht) (hset _ t hact))
  | wait wake next abort ihn iha => exact ⟨ihn h.1, iha h.2⟩

/-- A visit that stalls keeps the whole round from returning. -/
theorem collect {f : β → Routine ω σ (Option α)} {l : List β} {x : β} (hx : x ∈ l)
    (h : (f x).Stalls P) : (Routine.collect f l).Stalls P := by
  induction l with
  | nil => exact absurd hx List.not_mem_nil
  | cons y l ih =>
    rcases List.mem_cons.mp hx with rfl | hx
    · exact h.first
    · exact second fun _ => (ih hx).first

theorem resume {r : Routine ω σ α} (h : r.Stalls P) : r.resume.Stalls P := by
  cases r with
  | done outcome => exact h
  | step act next => exact h
  | wait wake next abort => exact h.1

section
variable {C : Conduct σ} {Q : α → Prop} (hquiet : ∀ {s s'}, C.quiet s s' → (P s ↔ P s'))
include hquiet

theorem advance_quiet {r : Routine ω σ α} {s : σ} (h : r.Stalls P) (hkeeps : r.Keeps C Q false)
    (hs : C.inv s) (hP : P s) : (r.advance s).1.Stalls P := by
  induction r generalizing s with
  | done outcome => exact h
  | step act next ih =>
    obtain ⟨hact, hnext⟩ := hkeeps s hs
    have hP' := (hquiet hact).mp hP
    exact ih s (h s hP hP') hnext (C.inv_quiet hs hact) hP'
  | wait wake next abort => exact h

/-- What stalls at the start of a stretch stalls at its end, if `P` has not been ended by then. -/
theorem advance {r : Routine ω σ α} {s : σ} (h : r.Stalls P) (hkeeps : r.Keeps C Q true)
    (hs : C.inv s) (hbefore : P s) (hafter : P (r.advance s).2) : (r.advance s).1.Stalls P := by
  cases r with
  | done outcome => exact h
  | step act next =>
    obtain ⟨hact, hnext⟩ := hkeeps s hs
    have hinv := C.inv_turn hs hact
    -- Only the first step may end `P`, and what follows it is quiet.
    have hiff : P (act s) ↔ P ((next s).advance (act s)).2 :=
      @Keeps.advance_rel _ _ _ C Q (fun s s' => P s ↔ P s') (fun _ => .rfl)
        (fun hq hrest => (hquiet hq).trans hrest) _ _ hnext hinv
    have hP := hiff.mpr hafter
    exact (h s hbefore hP).advance_quiet hquiet hnext hinv hP
  | wait wake next abort => exact h

end

end Stalls
end Routine

/-- The job is running. -/
def Cluster.Runs (job : String) (c : Cluster) : Prop := c.store.running? job ≠ none

namespace Lifecycle
open Cluster (Runs)
variable {engine : Engine} {job : String}

theorem running?_of_leave {w : Workspace} {status : Option Status}
    {result : Option (Job Instant) × Bool}
    (h : ((leave engine job status).commit w).1 = .ok result) :
    ((leave engine job status).commit w).2.store.running? job = none := by
  rw [commit_leave] at h ⊢
  cases hr : w.store.records.get? job with
  | none => simp [Store.running?, hr]
  | some r =>
    rw [hr] at h
    by_cases hrounds : engine.rounds ≤ 0
    · simp [hrounds] at h
    · cases hread : w.clock.read with
      | mk time c =>
        cases time with
        | error e => simp [hrounds, hread] at h
        | ok time =>
          cases htime : time.toInstant? with
          | none => simp [hrounds, hread, htime] at h
          | some i => simp only [if_neg hrounds, htime, Store.running?_stop, if_true]

/-- A job that goes on running is not killed. -/
theorem stalls_kill : (kill engine job).Stalls (Runs job) := by
  refine .first (.first (.yielding fun c _ hruns => ?_))
  intro result hresult
  exact hruns (running?_of_leave hresult)

/-- While one of the jobs that were found goes on running, the pass does not return. -/
theorem stalls_killAll {silent : List (Job Instant)} {j : Job Instant} (hj : j ∈ silent) :
    (killAll engine silent).Stalls (Runs j.id) :=
  .first (.collect hj (.first stalls_kill))

end Lifecycle
end JobControl
