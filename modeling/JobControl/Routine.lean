import JobControl.Failure

/-! # Routines

A routine is a computation over shared state `σ`, given as the sequence of its atomic steps and of
the places where it waits. Between two steps other routines may act on the state, and at a place
where it waits a routine may also be cancelled. `Routine.run` plays a routine without interference,
`Routine.advance` plays it up to the next place where it waits. -/

namespace JobControl

/-- A computation over shared state.

* `done`: it has returned or failed.
* `step act next`: one atomic step. `act` changes the state, `next` reads the state before it.
* `wait wake next abort`: it waits for the condition `wake`, or (`none`) only gives others a turn,
  and goes on with `next`; cancelled here, it goes on with `abort`. -/
inductive Routine (ω σ α : Type) where
  | done (outcome : Except Failure α)
  | step (act : σ → σ) (next : σ → Routine ω σ α)
  | wait (wake : Option ω) (next abort : Routine ω σ α)

namespace Routine
variable {ω σ τ α β γ : Type}

protected def bind : Routine ω σ α → (α → Routine ω σ β) → Routine ω σ β
  | done (.ok a), k => k a
  | done (.error e), _ => done (.error e)
  | step act next, k => step act fun s => (next s).bind k
  | wait wake next abort, k => wait wake (next.bind k) (abort.bind k)

instance : Monad (Routine ω σ) where
  pure a := done (.ok a)
  bind := Routine.bind

def fail (e : Failure) : Routine ω σ α := done (.error e)

/-- One atomic step that computes its outcome from the state and changes the state. -/
def act (f : σ → Except Failure α × σ) : Routine ω σ α :=
  step (fun s => (f s).2) fun s => done (f s).1

def read (f : σ → α) : Routine ω σ α := step id fun s => done (.ok (f s))

def modify (f : σ → σ) : Routine ω σ Unit := step f fun _ => done (.ok ())

/-- Change the state and report whether it applied. -/
def update (f : σ → α × σ) : Routine ω σ α := act fun s => (.ok (f s).1, (f s).2)

def ofExcept (r : Except Failure α) : Routine ω σ α := done r

/-- Let other routines act before going on with `r`; cancelled here, `r` does not begin. -/
def yielding (r : Routine ω σ α) : Routine ω σ α := wait none r (fail .cancelled)

def await (wake : ω) : Routine ω σ Unit := wait (some wake) (done (.ok ())) (fail .cancelled)

/-- Let other routines act; a cancellation here has no effect. -/
def pass : Routine ω σ Unit := wait none (done (.ok ())) (done (.ok ()))

/-- Go on with `handler` if `r` fails. A cancellation is not a failure of this kind. -/
def rescue (handler : Failure → Routine ω σ α) : Routine ω σ α → Routine ω σ α
  | done (.ok a) => done (.ok a)
  | done (.error .cancelled) => done (.error .cancelled)
  | done (.error e) => handler e
  | step act next => step act fun s => (next s).rescue handler
  | wait wake next abort => wait wake (next.rescue handler) (abort.rescue handler)

def attempt (r : Routine ω σ α) : Routine ω σ (Except Failure α) :=
  rescue (fun e => done (.ok (.error e))) (r.bind fun a => done (.ok (.ok a)))

/-- Do `cleanup` after `r`, however `r` ends. -/
def ensure : Routine ω σ α → Routine ω σ Unit → Routine ω σ α
  | done r, cleanup => cleanup.bind fun _ => done r
  | step act next, cleanup => step act fun s => (next s).ensure cleanup
  | wait wake next abort, cleanup => wait wake (next.ensure cleanup) (abort.ensure cleanup)

def zoom (get : τ → σ) (set : σ → τ → τ) : Routine ω σ α → Routine ω τ α
  | done r => done r
  | step act next => step (fun t => set (act (get t)) t) fun t => (next (get t)).zoom get set
  | wait wake next abort => wait wake (next.zoom get set) (abort.zoom get set)

/-- A routine that never waits for a condition, as one that might. -/
def widen : Routine Empty σ α → Routine ω σ α
  | done r => done r
  | step act next => step act fun s => (next s).widen
  | wait _ next abort => wait none next.widen abort.widen

/-- Play to the end without interference; every condition is taken to come true. -/
def run : Routine ω σ α → σ → Except Failure α × σ
  | done r, s => (r, s)
  | step act next, s => (next s).run (act s)
  | wait _ next _, s => next.run s

/-- Play up to the next place to wait at, or to the end. -/
def advance : Routine ω σ α → σ → Routine ω σ α × σ
  | done r, s => (done r, s)
  | step act next, s => (next s).advance (act s)
  | wait wake next abort, s => (wait wake next abort, s)

/-- What becomes of a routine that is cancelled where it waits. -/
def cancel : Routine ω σ α → Routine ω σ α
  | wait _ _ abort => abort
  | r => r

def resume : Routine ω σ α → Routine ω σ α
  | wait _ next _ => next
  | r => r

def waitsFor : Routine ω σ α → Option ω
  | wait wake _ _ => wake
  | _ => none

/-- Visit the members of a list in order and collect the results that are not `none`. -/
def collect (f : β → Routine ω σ (Option α)) : List β → Routine ω σ (List α)
  | [] => pure []
  | x :: xs => do
    let found ← f x
    let rest ← collect f xs
    return found.toList ++ rest

/-! ## What a run does, construct by construct -/

@[simp] theorem run_pure (a : α) (s : σ) : (pure a : Routine ω σ α).run s = (.ok a, s) := rfl

@[simp] theorem run_fail (e : Failure) (s : σ) :
    (fail e : Routine ω σ α).run s = (.error e, s) := rfl

@[simp] theorem run_act (f : σ → Except Failure α × σ) (s : σ) :
    (act f : Routine ω σ α).run s = f s := rfl

@[simp] theorem run_read (f : σ → α) (s : σ) :
    (read f : Routine ω σ α).run s = (.ok (f s), s) := rfl

@[simp] theorem run_modify (f : σ → σ) (s : σ) :
    (modify f : Routine ω σ Unit).run s = (.ok (), f s) := rfl

theorem run_bind (r : Routine ω σ α) (k : α → Routine ω σ β) (s : σ) :
    (r >>= k).run s =
      match r.run s with
      | (.ok a, s') => (k a).run s'
      | (.error e, s') => (.error e, s') := by
  show (r.bind k).run s = _
  induction r generalizing s with
  | done outcome => cases outcome <;> rfl
  | step act next ih => exact ih s (act s)
  | wait wake next abort ih _ => exact ih s

theorem run_bind_of_ok {r : Routine ω σ α} {k : α → Routine ω σ β} {s s' : σ} {a : α}
    (h : r.run s = (.ok a, s')) : (r >>= k).run s = (k a).run s' := by
  rw [run_bind, h]

theorem run_zoom (get : τ → σ) (set : σ → τ → τ) (get_set : ∀ s t, get (set s t) = s)
    (set_set : ∀ s s' t, set s (set s' t) = set s t) (set_get : ∀ t, set (get t) t = t)
    (r : Routine ω σ α) (t : τ) :
    (r.zoom get set).run t = ((r.run (get t)).1, set (r.run (get t)).2 t) := by
  induction r generalizing t with
  | done outcome => simp [zoom, run, set_get]
  | step act next ih => simp only [zoom, run]; rw [ih]; simp [get_set, set_set]
  | wait wake next abort ih _ => exact ih t

/-! ## Laws of sequencing -/

theorem bind_assoc (r : Routine ω σ α) (f : α → Routine ω σ β) (g : β → Routine ω σ γ) :
    r >>= f >>= g = r >>= fun a => f a >>= g := by
  show (r.bind f).bind g = r.bind fun a => (f a).bind g
  induction r with
  | done outcome => cases outcome <;> rfl
  | step act next ih => exact congrArg (step act) (funext fun s => ih s)
  | wait wake next abort ihn iha => simp only [Routine.bind, ihn, iha]

theorem map_map (r : Routine ω σ α) (f : α → β) (g : β → γ) : g <$> f <$> r = (g ∘ f) <$> r :=
  bind_assoc r _ _

theorem zoom_bind (get : τ → σ) (set : σ → τ → τ) (r : Routine ω σ α) (k : α → Routine ω σ β) :
    (r >>= k).zoom get set = r.zoom get set >>= fun a => (k a).zoom get set := by
  show (r.bind k).zoom get set = (r.zoom get set).bind fun a => (k a).zoom get set
  induction r with
  | done outcome => cases outcome <;> rfl
  | step act next ih => exact congrArg (step _) (funext fun t => ih (get t))
  | wait wake next abort ihn iha => simp only [Routine.bind, zoom, ihn, iha]

end Routine
end JobControl
